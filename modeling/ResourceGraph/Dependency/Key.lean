import ResourceGraph.App
import ResourceGraph.Dependency
import ResourceGraph.Generation.Error
import ResourceGraph.ModuleKey

namespace ResourceGraph

namespace GitSource

/-- The URL without one `.git` at its end. -/
def location (s : GitSource) : List Char :=
  let url := s.url.toList
  match Text.dropStart? ['t', 'i', 'g', '.'] url.reverse with
  | some rest => rest.reverse
  | none => url

def segments (s : GitSource) : List (List Char) :=
  (Text.split '/' s.location).filter fun part => !part.isEmpty

def lastTwo? (parts : List (List Char)) : Option (List Char × List Char) :=
  match parts.reverse with
  | repo :: org :: _ => some (org, repo)
  | _ => none

def key? (s : GitSource) : Option ModuleKey :=
  (lastTwo? s.segments).map fun (org, repo) =>
    ModuleKey.new (String.ofList (org ++ '/' :: repo)) s.tag

end GitSource

namespace Dependency

def key (module : String) (d : Dependency) : Except GenerationError ModuleKey :=
  match d.registry, d.git with
  | some r, _ => .ok (ModuleKey.new r.repo d.version)
  | none, some g =>
      match g.key? with
      | some key => .ok key
      | none => .error (.config (.shortGitUrl g.url module))
  | none, none => .error (.config (.noSource module))

end Dependency

namespace Accessory

def moduleKey (a : Accessory) (deps : Dependencies) : Except GenerationError ModuleKey := do
  let module ← a.moduleName.mapError .ofModel
  match deps.get? module with
  | none => throw (.moduleNotFound module)
  | some d => d.key module

/-- An absent block is served by no module. -/
def moduleKey? (a : Option Accessory) (deps : Dependencies) :
    Except GenerationError (Option ModuleKey) :=
  match a with
  | none => .ok none
  | some a => (a.moduleKey deps).map some

end Accessory

end ResourceGraph
