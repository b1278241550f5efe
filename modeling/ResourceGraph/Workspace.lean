import ResourceGraph.SecretStore

namespace ResourceGraph

abbrev Config := Dict Json

/-- A block that overrides the default for the selected projects. -/
structure PatcherBlock where
  selector : List String
  config : Config
  deriving DecidableEq, Repr

structure ModuleBlocks where
  path : String
  version : String
  default : Config
  patchers : Dict PatcherBlock
  deriving DecidableEq, Repr

structure Workspace where
  name : String
  modules : Dict ModuleBlocks
  context : Option Config
  secretStore : Option SecretStore
  deriving DecidableEq, Repr

def Config.read? (d : Document) : Option Config := d.dict? Document.json?

def Config.schema : Schema Config := ⟨.whole, read?⟩

namespace PatcherBlock

def form : Form := .openRecord [("projectSelector", .whole)]

/-- All members but the selector are configuration. -/
def read? (d : Document) : Option PatcherBlock := do
  let (fields, others) ← d.openRecord? form
  let config ← others.mapM fun e => e.2.json?.map fun v => (e.1, v)
  return {
    selector := ← fields.withDefault? "projectSelector" [] (Document.list? Document.text?)
    config := Dict.ofList config }

def toJson (b : PatcherBlock) : Json :=
  .object (("projectSelector", .ofStrings b.selector) :: b.config)

end PatcherBlock

namespace ModuleBlocks

def blocksForm : Form := .openRecord [("default", .whole)]

/-- The default block and, under all other names, the overriding blocks. -/
def readBlocks? (d : Document) : Option (Config × Dict PatcherBlock) := do
  let (fields, others) ← d.openRecord? blocksForm
  let patchers ← others.mapM fun e => (PatcherBlock.read? e.2).map fun b => (e.1, b)
  return (← fields.withDefault? "default" [] Config.read?, Dict.ofList patchers)

def form : Form := .record [("path", .whole), ("version", .whole), ("configs", blocksForm)]

def read? (d : Document) : Option ModuleBlocks := do
  let fields ← d.record? form
  let path ← fields.withDefault? "path" "" Document.text?
  let version ← fields.withDefault? "version" "" Document.text?
  let (default, patchers) ← fields.withDefault? "configs" ([], []) readBlocks?
  return { path, version, default, patchers }

def toJson (m : ModuleBlocks) : Json :=
  .record [Json.fieldUnless m.path.isEmpty "path" (.string m.path),
    Json.fieldUnless m.version.isEmpty "version" (.string m.version),
    Json.field "configs"
      (.object (("default", .ofDict m.default) :: Dict.mapValues PatcherBlock.toJson m.patchers))]

end ModuleBlocks

namespace Workspace

def ofName (name : String) : Workspace := ⟨name, [], none, none⟩

def form : Form :=
  .record [("name", .whole), ("modules", .each ModuleBlocks.form), ("context", .whole),
    ("secretStore", SecretStore.form)]

def read? (d : Document) : Option Workspace := do
  let fields ← d.record? form
  return {
    name := ← fields.required? "name" Document.text?
    modules := ← fields.withDefault? "modules" [] (Document.dict? ModuleBlocks.read?)
    context := ← fields.optional? "context" Config.read?
    secretStore := ← fields.optional? "secretStore" SecretStore.read? }

def schema : Schema Workspace := ⟨form, read?⟩

def toJson (w : Workspace) : Json :=
  .record [Json.field "name" (.string w.name),
    Json.fieldUnless w.modules.isEmpty "modules"
      (.ofDict (Dict.mapValues ModuleBlocks.toJson w.modules)),
    Json.fieldOf "context" w.context .ofDict,
    Json.fieldOf "secretStore" w.secretStore SecretStore.toJson]

end Workspace

end ResourceGraph
