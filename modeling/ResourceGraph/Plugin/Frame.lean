import ResourceGraph.Json.Reader
import ResourceGraph.Plugin.Message

namespace ResourceGraph

/-- What a JSON text denotes; none if it is not JSON. -/
def Schema.ofJsonText? {α : Type} (s : Schema α) (text : String) : Option α :=
  (Json.readAs? s.form text).bind s.ofJson?

structure Call where
  trace : String
  module : String
  request : Request
  deriving DecidableEq, Repr

namespace Call

def metadataForm : Form := .record [("kusion_trace_id", .whole), ("kusion_module_name", .whole)]

def form : Form := .record [("metadata", metadataForm), ("request", Request.form)]

def read? (d : Document) : Option Call := do
  let fields ← d.record? form
  let (trace, module) ← fields.required? "metadata" fun d => do
    let fields ← d.record? metadataForm
    return (← fields.required? "kusion_trace_id" Document.text?,
      ← fields.required? "kusion_module_name" Document.text?)
  return ⟨trace, module, ← fields.required? "request" Request.read?⟩

def schema : Schema Call := ⟨form, read?⟩

def toJson (c : Call) : Json :=
  .object [("metadata", .object [("kusion_trace_id", .string c.trace),
    ("kusion_module_name", .string c.module)]), ("request", c.request.toJson)]

def ofLine? (line : String) : Option Call := schema.ofJsonText? line

def line (c : Call) : String := c.toJson.text

end Call

/-- A reply; the error counts when both are given. -/
structure Reply where
  trace : String
  response : Option Response
  error : Option String
  deriving DecidableEq, Repr

namespace Reply

def ofResponse (trace : String) (response : Response) : Reply := ⟨trace, some response, none⟩

def ofError (trace message : String) : Reply := ⟨trace, none, some message⟩

def form : Form :=
  .record [("kusion_trace_id", .whole), ("response", Response.form), ("error", .whole)]

def read? (d : Document) : Option Reply := do
  let fields ← d.record? form
  return {
    trace := ← fields.required? "kusion_trace_id" Document.text?
    response := ← fields.optional? "response" Response.read?
    error := ← fields.optional? "error" Document.text? }

def schema : Schema Reply := ⟨form, read?⟩

def toJson (r : Reply) : Json :=
  .record [Json.field "kusion_trace_id" (.string r.trace),
    Json.fieldOf "response" r.response Response.toJson, Json.fieldOf "error" r.error .string]

def ofLine? (line : String) : Option Reply := schema.ofJsonText? line

def line (r : Reply) : String := r.toJson.text

end Reply

end ResourceGraph
