import ResourceGraph.Workspace

namespace ResourceGraph

inductive ResourceType where
  | kubernetes
  | terraform
  deriving DecidableEq, Repr

def ResourceType.name : ResourceType → String
  | .kubernetes => "Kubernetes"
  | .terraform => "Terraform"

def ResourceType.ofName? : String → Option ResourceType
  | "Kubernetes" => some .kubernetes
  | "Terraform" => some .terraform
  | _ => none

/-- A resource: its desired state, what it depends on, and notes about it. -/
structure Resource where
  id : String
  type : ResourceType
  attributes : Dict Json
  dependsOn : List String
  extensions : Dict Json
  deriving DecidableEq, Repr

namespace Resource

def workloadMark : String := "kusion.io/is-workload"

def healthPolicy : String := "healthPolicy"

def importId : String := "kusion.io/import-id"

def new (id : String) (type : ResourceType) (attributes : Dict Json) : Resource :=
  ⟨id, type, attributes, [], []⟩

def readTable? (d : Document) : Option (Dict Json) :=
  (d.optional? (Document.dict? Document.json?)).map (·.getD [])

def form : Form :=
  .record [("id", .whole), ("type", .whole), ("attributes", .whole), ("dependsOn", .whole),
    ("extensions", .whole)]

def read? (d : Document) : Option Resource := do
  let fields ← d.record? form
  return {
    id := ← fields.required? "id" Document.text?
    type := ← fields.required? "type" fun d => d.variant?.bind ResourceType.ofName?
    attributes := ← fields.withDefault? "attributes" [] readTable?
    dependsOn := ← fields.withDefault? "dependsOn" [] (Document.list? Document.text?)
    extensions := ← fields.withDefault? "extensions" [] readTable? }

def schema : Schema Resource := ⟨form, read?⟩

def toJson (r : Resource) : Json :=
  .record [Json.field "id" (.string r.id), Json.field "type" (.string r.type.name),
    Json.field "attributes" (.ofDict r.attributes),
    Json.fieldUnless r.dependsOn.isEmpty "dependsOn" (.ofStrings r.dependsOn),
    Json.field "extensions" (.ofDict r.extensions)]

/-- The mark is the boolean `true` or the text `true`. -/
def isWorkload (r : Resource) : Bool :=
  match r.extensions.get? workloadMark with
  | some (.bool b) => b
  | some (.string s) => s == "true"
  | _ => false

def asWorkload (r : Resource) : Resource :=
  { r with extensions := r.extensions.insert workloadMark (.bool true) }

def apiVersion? (r : Resource) : Option String :=
  (r.attributes.get? "apiVersion").bind Json.asString?

def kind? (r : Resource) : Option String := (r.attributes.get? "kind").bind Json.asString?

theorem isWorkload_asWorkload (r : Resource) : r.asWorkload.isWorkload = true := by
  simp [isWorkload, asWorkload]

end Resource

end ResourceGraph
