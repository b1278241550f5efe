import ResourceGraph.Yaml.Value

/-!
Typed reading of documents. A document is JSON or YAML; the two differ in what fills a text field
(a JSON string, or any YAML scalar by its text), in what counts as absent, and in whether a record
may be written as an array of its fields.
-/

namespace ResourceGraph

/-- A value to be read, inside `depth` collections. -/
inductive Document where
  | json (depth : Nat) (value : Json)
  | yaml (depth : Nat) (tree : Yaml.Tree)

namespace Document

/-- A JSON value inside this many others is never read. -/
def jsonDepthLimit : Nat := 127

def ofJson (value : Json) : Document := .json 0 value

/-- The document of a YAML text for a reader; none if it is not YAML. -/
def ofYamlText? (form : Form) (text : String) : Option Document :=
  (Yaml.Tree.read? form text).map (.yaml 0)

/-- An empty plain scalar: the value of a key without a value. -/
def isVacant : Document → Bool
  | .yaml _ (.scalar _ style text) => style == .plain && text.isEmpty
  | _ => false

def text? : Document → Option String
  | .json _ (.string s) => some s
  | .yaml _ (.scalar _ _ text) => some text
  | _ => none

/-- The value if there is one. A plain scalar that spells null, and an empty one, are none. -/
def optional? {α : Type} (read : Document → Option α) (d : Document) : Option (Option α) :=
  match d with
  | .json _ .null => some none
  | .yaml _ (.scalar tag .plain text) =>
      match tag with
      | some (.standard .null) => if Yaml.Plain.isNull text then some none else none
      -- Under any other tag the scalar is a value, whatever its text.
      | some _ => (read d).map some
      | none => if text.isEmpty || Yaml.Plain.isNull text then some none else (read d).map some
  | _ => (read d).map some

def items? : Document → Option (List Document)
  | .json depth (.array items) =>
      if depth < jsonDepthLimit then some (items.map (.json (depth + 1))) else none
  | .yaml depth (.sequence _ items) =>
      if depth < Yaml.Tree.depthLimit then some (items.map (.yaml (depth + 1))) else none
  | d => if d.isVacant then some [] else none

def list? {α : Type} (read : Document → Option α) (d : Document) : Option (List α) := do
  (← d.items?).mapM read

/-- The members of a mapping in their order, repeated names included. -/
def members? : Document → Option (List (String × Document))
  | .json depth (.object members) =>
      if depth < jsonDepthLimit then some (members.map fun e => (e.1, .json (depth + 1) e.2))
      else none
  | .yaml depth (.mapping _ entries) =>
      if depth < Yaml.Tree.depthLimit then
        entries.mapM fun e => match e.1 with
          | .scalar _ _ name => some (name, .yaml (depth + 1) e.2)
          | _ => none
      else none
  | d => if d.isVacant then some [] else none

/-- A table; of members with the same name the last one counts. -/
def dict? {α : Type} (read : Document → Option α) (d : Document) : Option (Dict α) := do
  let entries ← (← d.members?).mapM fun e => (read e.2).map fun v => (e.1, v)
  return Dict.ofList entries

def json? : Document → Option Json
  | .json depth value =>
      if value.depth = 0 ∨ depth + value.depth ≤ jsonDepthLimit then some value.canonical else none
  | .yaml depth tree => (tree.toJson? .anyScalar depth).map Json.canonical

/-- A name out of a fixed choice. A local YAML tag may stand for it when nothing follows. -/
def variant? : Document → Option String
  | .json _ (.string s) => some s
  | .json _ (.object [(name, .null)]) => some name
  | .yaml _ (.scalar tag style text) =>
      match Yaml.Tree.localName? tag with
      | none => some text
      | some name =>
          if style == .plain && (text.isEmpty || Yaml.Plain.isNull text) then some name else none
  | _ => none

/-- The entries of an ordered mapping, whose keys may be any values and are all different. -/
def mapping? : Document → Option (List (Yaml.Value × Yaml.Value))
  | .json depth (.object members) =>
      if depth + (Json.object members).depth ≤ jsonDepthLimit then
        if (Json.object members).hasDistinctKeys then some (Yaml.Value.ofMembers members) else none
      else none
  | .yaml depth (.mapping _ entries) =>
      -- The tag of the mapping itself does not count.
      match (Yaml.Tree.mapping none entries).toValue? depth with
      | some (.mapping es) => some es
      | _ => none
  | d => if d.isVacant then some [] else none

abbrev Fields := List (String × Document)

def distinct (fields : Fields) : Bool :=
  match fields with
  | [] => true
  | (k, _) :: rest => !rest.any (·.1 == k) && distinct rest

/-- The fields of a record. Other members are ignored, a repeated field is refused. A JSON array
gives the fields in order. -/
def record? (form : Form) (d : Document) : Option Fields :=
  match d with
  | .json depth (.array items) =>
      if jsonDepthLimit ≤ depth || form.names.length < items.length then none
      else some (form.names.zip (items.map (.json (depth + 1))))
  | .yaml _ (.sequence ..) => none
  | _ => do
      let fields := (← d.members?).filter fun e => form.names.contains e.1
      if distinct fields then some fields else none

/-- A value that was set aside while the other members of a record were read: it is read by the
rules of JSON, and names of its members must have been text. -/
def setAside? : Document → Option Document
  | .json depth value =>
      if value.depth = 0 ∨ depth + value.depth ≤ jsonDepthLimit then some (.json 0 value) else none
  | .yaml depth tree => (tree.toJson? .textOnly depth).map (.json 0)

/-- The fields of a record, and all other members set aside. -/
def openRecord? (form : Form) (d : Document) : Option (Fields × Fields) := do
  let members ← d.members?
  let fields := members.filter fun e => form.names.contains e.1
  if !distinct fields then none
  let others ← (members.filter fun e => !form.names.contains e.1).mapM fun e =>
    e.2.setAside?.map fun v => (e.1, v)
  return (fields, others)

namespace Fields

def field? (fields : Fields) (name : String) : Option Document :=
  (fields.find? fun e => e.1 == name).map Prod.snd

def required? {α : Type} (fields : Fields) (name : String) (read : Document → Option α) :
    Option α := do
  read (← fields.field? name)

def withDefault? {α : Type} (fields : Fields) (name : String) (default : α)
    (read : Document → Option α) : Option α :=
  match fields.field? name with
  | some d => read d
  | none => some default

def optional? {α : Type} (fields : Fields) (name : String) (read : Document → Option α) :
    Option (Option α) :=
  match fields.field? name with
  | some d => d.optional? read
  | none => some none

end Fields

end Document

/-- How documents of one type are read: what is looked at in them, and the value of one. -/
structure Schema (α : Type) where
  form : Form
  read? : Document → Option α

namespace Schema

variable {α : Type}

def ofJson? (s : Schema α) (value : Json) : Option α := s.read? (.ofJson value)

def ofYamlText? (s : Schema α) (text : String) : Option α :=
  (Document.ofYamlText? s.form text).bind s.read?

def table (s : Schema α) : Schema (Dict α) := ⟨.each s.form, Document.dict? s.read?⟩

end Schema

end ResourceGraph
