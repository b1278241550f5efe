import ResourceGraph.Document
import ResourceGraph.Json.Writer

namespace ResourceGraph

/-- The text that stands for the removal of an entry. -/
def removalValue : String := "ops://kusionstack.io/remove"

structure Variable where
  name : String
  value : String
  valueFrom : Option Json
  deriving DecidableEq, Repr

namespace Variable

def isRemoval (e : Variable) : Bool := e.value == removalValue

def form : Form := .record [("name", .whole), ("value", .whole), ("valueFrom", .whole)]

def read? (d : Document) : Option Variable := do
  let fields ← d.record? form
  return {
    name := ← fields.required? "name" Document.text?
    value := ← fields.withDefault? "value" "" Document.text?
    valueFrom := ← fields.optional? "valueFrom" Document.json? }

def toJson (e : Variable) : Json :=
  .record [Json.field "name" (.string e.name),
    Json.fieldUnless e.value.isEmpty "value" (.string e.value),
    Json.fieldOf "valueFrom" e.valueFrom id]

end Variable

/-- The rules by which a payload changes a document. -/
inductive PatchRule where
  | mergePatch
  | jsonPatch
  | unsupported (name : String)
  deriving DecidableEq, Repr

def PatchRule.ofName (name : String) : PatchRule :=
  if name = "MergePatch" then .mergePatch
  else if name = "JSONPatch" then .jsonPatch
  else .unsupported name

def PatchRule.name : PatchRule → String
  | .mergePatch => "MergePatch"
  | .jsonPatch => "JSONPatch"
  | .unsupported name => name

structure AttributePatch where
  type : PatchRule
  payload : Json
  deriving DecidableEq, Repr

namespace AttributePatch

def form : Form := .record [("type", .whole), ("payload", .whole)]

def read? (d : Document) : Option AttributePatch := do
  let fields ← d.record? form
  return {
    type := ← fields.required? "type" fun d => d.text?.map PatchRule.ofName
    payload := ← fields.required? "payload" Document.json? }

def toJson (p : AttributePatch) : Json :=
  .record [Json.field "type" (.string p.type.name), Json.field "payload" p.payload]

/-- The document of the patch: a text payload is the document itself, any other is written. -/
def payloadText (p : AttributePatch) : String :=
  match p.payload with
  | .string raw => raw
  | other => other.text

end AttributePatch

/-- What to change in the workload, and in resources by their id. -/
structure Patcher where
  labels : Option (Dict String)
  podLabels : Option (Dict String)
  annotations : Option (Dict String)
  podAnnotations : Option (Dict String)
  environment : Option (List Variable)
  attributePatches : Option (Dict AttributePatch)
  deriving DecidableEq, Repr

namespace Patcher

def form : Form :=
  .record [("labels", .whole), ("podLabels", .whole), ("annotations", .whole),
    ("podAnnotations", .whole), ("environments", .each Variable.form),
    ("jsonPatcher", .each AttributePatch.form)]

def read? (d : Document) : Option Patcher := do
  let fields ← d.record? form
  let texts (name : String) := fields.optional? name (Document.dict? Document.text?)
  return {
    labels := ← texts "labels"
    podLabels := ← texts "podLabels"
    annotations := ← texts "annotations"
    podAnnotations := ← texts "podAnnotations"
    environment := ← fields.optional? "environments" (Document.list? Variable.read?)
    attributePatches := ← fields.optional? "jsonPatcher" (Document.dict? AttributePatch.read?) }

def schema : Schema Patcher := ⟨form, read?⟩

def toJson (p : Patcher) : Json :=
  .record [Json.fieldOf "labels" p.labels .ofStringDict,
    Json.fieldOf "podLabels" p.podLabels .ofStringDict,
    Json.fieldOf "annotations" p.annotations .ofStringDict,
    Json.fieldOf "podAnnotations" p.podAnnotations .ofStringDict,
    Json.fieldOf "environments" p.environment fun es => .array (es.map Variable.toJson),
    Json.fieldOf "jsonPatcher" p.attributePatches fun ps =>
      .ofDict (Dict.mapValues AttributePatch.toJson ps)]

end Patcher

end ResourceGraph
