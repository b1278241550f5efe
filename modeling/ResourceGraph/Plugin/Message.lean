import ResourceGraph.Document
import ResourceGraph.Json.Writer
import ResourceGraph.Text.Base64

namespace ResourceGraph

structure Request where
  project : String
  stack : String
  app : String
  workload : Option Bytes
  devConfig : Option Bytes
  platformConfig : Option Bytes
  context : Option Bytes
  secretStore : Option Bytes
  deriving DecidableEq, Repr

structure Response where
  resources : List Bytes
  patcher : Option Bytes
  deriving DecidableEq, Repr

/-- Bytes stand in JSON as base64 text. -/
def Bytes.read? (d : Document) : Option Bytes := d.text?.bind Base64.decodeText?

def Bytes.toJson (bytes : Bytes) : Json := .string (Base64.encodeText bytes)

/-- Absent bytes are written as null. -/
def Bytes.optionJson : Option Bytes → Json
  | some bytes => bytes.toJson
  | none => .null

namespace Request

def ofNames (project stack app : String) : Request :=
  ⟨project, stack, app, none, none, none, none, none⟩

def form : Form :=
  .record [("project", .whole), ("stack", .whole), ("app", .whole), ("workload", .whole),
    ("devConfig", .whole), ("platformConfig", .whole), ("context", .whole),
    ("secretStore", .whole)]

def read? (d : Document) : Option Request := do
  let fields ← d.record? form
  return {
    project := ← fields.required? "project" Document.text?
    stack := ← fields.required? "stack" Document.text?
    app := ← fields.required? "app" Document.text?
    workload := ← fields.optional? "workload" Bytes.read?
    devConfig := ← fields.optional? "devConfig" Bytes.read?
    platformConfig := ← fields.optional? "platformConfig" Bytes.read?
    context := ← fields.optional? "context" Bytes.read?
    secretStore := ← fields.optional? "secretStore" Bytes.read? }

def toJson (r : Request) : Json :=
  .object [("project", .string r.project), ("stack", .string r.stack), ("app", .string r.app),
    ("workload", Bytes.optionJson r.workload), ("devConfig", Bytes.optionJson r.devConfig),
    ("platformConfig", Bytes.optionJson r.platformConfig), ("context", Bytes.optionJson r.context),
    ("secretStore", Bytes.optionJson r.secretStore)]

end Request

namespace Response

def empty : Response := ⟨[], none⟩

def form : Form := .record [("resources", .whole), ("patcher", .whole)]

/-- Null stands for no resources. -/
def read? (d : Document) : Option Response := do
  let fields ← d.record? form
  let resources ← fields.optional? "resources" (Document.list? Bytes.read?)
  return ⟨resources.getD [], ← fields.optional? "patcher" Bytes.read?⟩

def toJson (r : Response) : Json :=
  .object [("resources", .array (r.resources.map Bytes.toJson)),
    ("patcher", Bytes.optionJson r.patcher)]

end Response

end ResourceGraph
