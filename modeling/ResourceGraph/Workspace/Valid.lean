import ResourceGraph.ModelError
import ResourceGraph.Workspace

namespace ResourceGraph.Workspace

/-- Add the projects of one block to those already selected, each with its block. -/
def selectProjects (module block : String) :
    Dict String → List String → Except WorkspaceFault (Dict String)
  | selected, [] => .ok selected
  | selected, project :: rest =>
      if project.isEmpty then .error (.emptyProject module block)
      else
        match selected.get? project with
        | some first => .error (.selectedTwice module project first block)
        | none => selectProjects module block (selected.insert project block) rest

def checkBlocks (module : String) :
    Dict String → Dict PatcherBlock → Except WorkspaceFault Unit
  | _, [] => .ok ()
  | selected, (name, block) :: rest =>
      if block.selector.isEmpty then .error (.emptySelector module name)
      else do
        let selected ← selectProjects module name selected block.selector
        checkBlocks module selected rest

def checkModule (module : String) (m : ModuleBlocks) : Except WorkspaceFault Unit :=
  if m.default.contains "projectSelector" then .error (.defaultSelects module)
  else checkBlocks module [] m.patchers

def checkModules : Dict ModuleBlocks → Except WorkspaceFault Unit
  | [] => .ok ()
  | (name, m) :: rest => do
      checkModule name m
      checkModules rest

def checkStore : Option SecretStore → Except WorkspaceFault Unit
  | none => .ok ()
  | some store =>
      if store.provider.length = 1 then .ok () else .error (.providerCount store.provider.length)

/-- The first rule that a workspace breaks, if it breaks one. -/
def check (w : Workspace) : Except WorkspaceFault Unit := do
  if w.name.isEmpty then throw .emptyName
  checkModules w.modules
  checkStore w.secretStore

def validate (w : Workspace) : Except ModelError Unit :=
  w.check.mapError (.invalidWorkspace w.name)

end ResourceGraph.Workspace
