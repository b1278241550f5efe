import ResourceGraph.Json.Writer
import ResourceGraph.Yaml.Plain
import ResourceGraph.Yaml.Tree

namespace ResourceGraph.Yaml

inductive Value where
  | null
  | bool (value : Bool)
  | number (value : Number)
  | infinity (negative : Bool)
  | notANumber
  | string (value : String)
  | sequence (items : List Value)
  | mapping (entries : List (Value × Value))
  | tagged (name : String) (value : Value)
  deriving Repr, Inhabited

namespace Value

/-- Two numbers are the same if they are written alike and equal; zero has no sign here. -/
def sameNumber : Number → Number → Bool
  | .int a, .int b => a == b
  | .float a, .float b => a == b || (a.isZero && b.isZero)
  | _, _ => false

mutual

/-- Two values that cannot both be keys of one mapping. The order of the entries of a mapping does
not tell it from another. -/
def same : Value → Value → Bool
  | .null, .null => true
  | .bool a, .bool b => a == b
  | .number a, .number b => sameNumber a b
  | .infinity a, .infinity b => a == b
  | .notANumber, .notANumber => true
  | .string a, .string b => a == b
  | .sequence a, .sequence b => sameItems a b
  | .mapping a, .mapping b => a.length == b.length && areIn a b
  | .tagged m a, .tagged n b => m == n && same a b
  | _, _ => false

def sameItems : List Value → List Value → Bool
  | [], [] => true
  | a :: as, b :: bs => same a b && sameItems as bs
  | _, _ => false

/-- Every entry of one list is the same as one of the other. -/
def areIn : List (Value × Value) → List (Value × Value) → Bool
  | [], _ => true
  | (k, v) :: rest, entries => entries.any (fun e => same k e.1 && same v e.2) && areIn rest entries

end

def untagged : Value → Value
  | .tagged _ v => v.untagged
  | v => v

def asString? (v : Value) : Option String :=
  match v.untagged with
  | .string s => some s
  | _ => none

def asBool? (v : Value) : Option Bool :=
  match v.untagged with
  | .bool b => some b
  | _ => none

/-- The entries of a mapping whose keys are all texts; null is an empty mapping. -/
def asMembers? (v : Value) : Option (List (String × Value)) :=
  match v.untagged with
  | .null => some []
  | .mapping entries => entries.mapM fun e => e.1.asString?.map fun k => (k, e.2)
  | _ => none

def asTextTable? (v : Value) : Option (Dict String) := do
  let entries ← (← v.asMembers?).mapM fun e => e.2.asString?.map fun s => (e.1, s)
  return Dict.ofList entries

def lookup? (entries : List (Value × Value)) (key : String) : Option Value :=
  (entries.find? fun e => match e.1 with
    | .string s => s == key
    | _ => false).map Prod.snd

mutual

def ofJson : Json → Value
  | .null => .null
  | .bool b => .bool b
  | .number n => .number n
  | .string s => .string s
  | .array items => .sequence (ofItems items)
  | .object members => .mapping (ofMembers members)

def ofItems : List Json → List Value
  | [] => []
  | x :: rest => ofJson x :: ofItems rest

def ofMembers : List (String × Json) → List (Value × Value)
  | [] => []
  | (k, x) :: rest => (.string k, ofJson x) :: ofMembers rest

end

/-- The member name that stands for a key: text, a number or a boolean. -/
def memberName? : Value → Option String
  | .string s => some s
  | .number n => some n.json
  | .bool b => some (if b then "true" else "false")
  | _ => none

mutual

/-- A YAML value as JSON: a tag becomes the only member of an object, and numbers that JSON lacks
become null. Keys that have no member name are refused. -/
def toJson? : Value → Option Json
  | .null | .infinity _ | .notANumber => some .null
  | .bool b => some (.bool b)
  | .number n => some (.number n)
  | .string s => some (.string s)
  | .sequence items => (itemsJson? items).map .array
  | .mapping entries => (entriesJson? entries).map .object
  | .tagged name v => v.toJson?.map fun x => .object [("!" ++ name, x)]

def itemsJson? : List Value → Option (List Json)
  | [] => some []
  | x :: rest => do
      let v ← x.toJson?
      let vs ← itemsJson? rest
      return v :: vs

def entriesJson? : List (Value × Value) → Option (List (String × Json))
  | [] => some []
  | (k, x) :: rest => do
      let name ← k.memberName?
      let v ← x.toJson?
      let es ← entriesJson? rest
      return (name, v) :: es

end

end Value

namespace Tree

def localName? (tag : Option Tag) : Option String := tag.bind Tag.name?

def underTag (tag : Option Tag) (v : Value) : Value :=
  match localName? tag with
  | some name => .tagged (Tag.shownName name) v
  | none => v

def scalarValue? (tag : Option Tag) (style : Style) (text : String) : Option Value := do
  match ← Plain.ofScalar? tag style text with
  | .null => return .null
  | .bool b => return .bool b
  | .int n => return .number (.int n)
  | .wideInt => none
  | .float d => return .number (.float d)
  | .infinity negative => return .infinity negative
  | .notANumber => return .notANumber
  | .text => return .string text

def distinctKeys : List (Value × Value) → Bool
  | [] => true
  | (k, _) :: rest => rest.all (fun e => !(e.1.same k)) && distinctKeys rest

mutual

/-- The value of a tree inside `depth` collections. A repeated key is refused. -/
def toValue? (depth : Nat) : Tree → Option Value
  | .scalar tag style text => (scalarValue? tag style text).map (underTag tag)
  | .sequence tag items =>
      if depthLimit ≤ depth then none
      else (itemValues? (depth + 1) items).map fun xs => underTag tag (.sequence xs)
  | .mapping tag entries =>
      if depthLimit ≤ depth then none
      else do
        let es ← entryValues? (depth + 1) entries
        if distinctKeys es then some (underTag tag (.mapping es)) else none
  | .alias _ | .unreadable => none

def itemValues? (depth : Nat) : List Tree → Option (List Value)
  | [] => some []
  | x :: rest => do
      let v ← toValue? depth x
      let vs ← itemValues? depth rest
      return v :: vs

def entryValues? (depth : Nat) : List (Tree × Tree) → Option (List (Value × Value))
  | [] => some []
  | (k, v) :: rest => do
      let k ← toValue? depth k
      let v ← toValue? depth v
      let es ← entryValues? depth rest
      return (k, v) :: es

end

/-- How the keys of mappings become member names: any scalar by its text, or text alone. -/
inductive KeyRule where
  | anyScalar
  | textOnly

def KeyRule.name? (rule : KeyRule) : Tree → Option String
  | .scalar tag style text =>
      match rule with
      | .anyScalar => some text
      | .textOnly =>
          match localName? tag, Plain.ofScalar? tag style text with
          | none, some .text => some text
          | _, _ => none
  | _ => none

mutual

/-- A tree as JSON. Numbers that JSON lacks become null; local tags are refused; members keep
their order and repeated keys. -/
def toJson? (rule : KeyRule) (depth : Nat) : Tree → Option Json
  | .scalar tag style text =>
      match localName? tag with
      | some _ => none
      | none =>
          match scalarValue? tag style text with
          | some .null | some (.infinity _) | some .notANumber => some .null
          | some (.bool b) => some (.bool b)
          | some (.number n) => some (.number n)
          | some (.string s) => some (.string s)
          | _ => none
  | .sequence tag items =>
      if depthLimit ≤ depth || (localName? tag).isSome then none
      else (itemsJson? rule (depth + 1) items).map .array
  | .mapping tag entries =>
      if depthLimit ≤ depth || (localName? tag).isSome then none
      else (entriesJson? rule (depth + 1) entries).map .object
  | .alias _ | .unreadable => none

def itemsJson? (rule : KeyRule) (depth : Nat) : List Tree → Option (List Json)
  | [] => some []
  | x :: rest => do
      let v ← toJson? rule depth x
      let vs ← itemsJson? rule depth rest
      return v :: vs

def entriesJson? (rule : KeyRule) (depth : Nat) :
    List (Tree × Tree) → Option (List (String × Json))
  | [] => some []
  | (k, v) :: rest => do
      let k ← rule.name? k
      let v ← toJson? rule depth v
      let es ← entriesJson? rule depth rest
      return (k, v) :: es

end

end Tree

end ResourceGraph.Yaml
