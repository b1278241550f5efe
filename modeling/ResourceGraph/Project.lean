import ResourceGraph.Document

namespace ResourceGraph

inductive ExtensionKind where
  | kubernetesNamespace
  | kubernetesMetadata
  | other
  deriving DecidableEq, Repr

def ExtensionKind.ofName : String → ExtensionKind
  | "kubernetesNamespace" => .kubernetesNamespace
  | "kubernetesMetadata" => .kubernetesMetadata
  | _ => .other

def ExtensionKind.name : ExtensionKind → String
  | .kubernetesNamespace => "kubernetesNamespace"
  | .kubernetesMetadata => "kubernetesMetadata"
  | .other => "other"

/-- A declared extension. A namespace may be given whatever the kind. -/
structure Extension where
  kind : ExtensionKind
  nameSpace : Option String
  deriving DecidableEq, Repr

namespace Extension

def ofNamespace (name : String) : Extension := ⟨.kubernetesNamespace, some name⟩

def namespaceForm : Form := .record [("namespace", .whole)]

def form : Form := .record [("kind", .whole), ("kubernetesNamespace", namespaceForm)]

def read? (d : Document) : Option Extension := do
  let fields ← d.record? form
  return {
    kind := ← fields.required? "kind" fun d => d.variant?.map ExtensionKind.ofName
    nameSpace := ← fields.optional? "kubernetesNamespace" fun d => do
      let inner ← d.record? namespaceForm
      inner.required? "namespace" Document.text? }

def toJson (e : Extension) : Json :=
  .record [Json.field "kind" (.string e.kind.name),
    Json.fieldOf "kubernetesNamespace" e.nameSpace fun n =>
      .record [Json.field "namespace" (.string n)]]

end Extension

structure Project where
  name : String
  description : Option String
  extensions : List Extension
  deriving DecidableEq, Repr

namespace Project

def form : Form :=
  .record [("name", .whole), ("description", .whole), ("extensions", .each Extension.form)]

def read? (d : Document) : Option Project := do
  let fields ← d.record? form
  return {
    name := ← fields.required? "name" Document.text?
    description := ← fields.optional? "description" Document.text?
    extensions := ← fields.withDefault? "extensions" [] (Document.list? Extension.read?) }

def schema : Schema Project := ⟨form, read?⟩

def toJson (p : Project) : Json :=
  .record [Json.field "name" (.string p.name), Json.fieldOf "description" p.description .string,
    Json.fieldUnless p.extensions.isEmpty "extensions" (.array (p.extensions.map Extension.toJson))]

end Project

/-- One deployable instance of a project; `path` is the working directory of its modules. -/
structure Stack where
  name : String
  path : String
  extensions : List Extension
  deriving DecidableEq, Repr

namespace Stack

def form : Form :=
  .record [("name", .whole), ("path", .whole), ("extensions", .each Extension.form)]

def read? (d : Document) : Option Stack := do
  let fields ← d.record? form
  return {
    name := ← fields.required? "name" Document.text?
    path := ← fields.withDefault? "path" "" Document.text?
    extensions := ← fields.withDefault? "extensions" [] (Document.list? Extension.read?) }

def schema : Schema Stack := ⟨form, read?⟩

def toJson (s : Stack) : Json :=
  .record [Json.field "name" (.string s.name), Json.field "path" (.string s.path),
    Json.fieldUnless s.extensions.isEmpty "extensions" (.array (s.extensions.map Extension.toJson))]

end Stack

end ResourceGraph
