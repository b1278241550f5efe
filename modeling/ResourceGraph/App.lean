import ResourceGraph.Document
import ResourceGraph.ModelError
import ResourceGraph.Text.Split

namespace ResourceGraph

/-- A block of configuration with its keys in declaration order. -/
structure Accessory where
  entries : List (Yaml.Value × Yaml.Value)
  deriving Repr, Inhabited

namespace Accessory

def form : Form := .each .whole

def read? (d : Document) : Option Accessory := d.mapping?.map Accessory.mk

def schema : Schema Accessory := ⟨form, read?⟩

def get? (a : Accessory) (key : String) : Option Yaml.Value := Yaml.Value.lookup? a.entries key

/-- The tag that names the type of the block, such as `service.Service`. -/
def typeTag (a : Accessory) : Except ModelError String :=
  match a.get? "_type" with
  | none => throw .missingType
  | some v =>
      match v.asString? with
      | some tag => pure tag
      | none => throw .invalidType

def moduleName (a : Accessory) : Except ModelError String := do
  let tag ← a.typeTag
  return String.ofList (tag.toList.takeWhile (· ≠ '.'))

def value (a : Accessory) : Yaml.Value := .mapping a.entries

end Accessory

structure App where
  name : String
  workload : Option Accessory
  accessories : Dict Accessory
  deriving Repr, Inhabited

namespace App

def form : Form :=
  .record [("name", .whole), ("workload", Accessory.form), ("accessories", .each Accessory.form)]

def read? (d : Document) : Option App := do
  let fields ← d.record? form
  return {
    name := ← fields.withDefault? "name" "" Document.text?
    workload := ← fields.optional? "workload" Accessory.read?
    accessories := ← fields.withDefault? "accessories" [] (Document.dict? Accessory.read?) }

def schema : Schema App := ⟨form, read?⟩

/-- As JSON; there is none if a key of a block has no JSON form. -/
def toJson? (a : App) : Option Json := do
  let workload ← a.workload.mapM fun w => w.value.toJson?
  let accessories ← a.accessories.mapM fun e => e.2.value.toJson?.map fun v => (e.1, v)
  return .record [Json.fieldUnless a.name.isEmpty "name" (.string a.name),
    Json.fieldOf "workload" workload id,
    Json.fieldUnless accessories.isEmpty "accessories" (.object accessories)]

end App

end ResourceGraph
