import ResourceGraph.Resource

namespace ResourceGraph

structure Graph where
  resources : List Resource
  secretStore : Option SecretStore
  context : Option Config
  deriving DecidableEq, Repr

namespace Graph

def empty : Graph := ⟨[], none, none⟩

def form : Form :=
  .record [("resources", .each Resource.form), ("secretStore", SecretStore.form),
    ("context", .whole)]

def read? (d : Document) : Option Graph := do
  let fields ← d.record? form
  return {
    resources := ← fields.withDefault? "resources" [] (Document.list? Resource.read?)
    secretStore := ← fields.optional? "secretStore" SecretStore.read?
    context := ← fields.optional? "context" Config.read? }

def schema : Schema Graph := ⟨form, read?⟩

def toJson (g : Graph) : Json :=
  .record [Json.field "resources" (.array (g.resources.map Resource.toJson)),
    Json.fieldOf "secretStore" g.secretStore SecretStore.toJson,
    Json.fieldOf "context" g.context .ofDict]

def ids (g : Graph) : List String := g.resources.map Resource.id

def contains (g : Graph) (id : String) : Bool := g.resources.any (·.id == id)

def get? (g : Graph) (id : String) : Option Resource := g.resources.find? (·.id == id)

def workload? (g : Graph) : Option Resource := g.resources.find? Resource.isWorkload

end Graph

end ResourceGraph
