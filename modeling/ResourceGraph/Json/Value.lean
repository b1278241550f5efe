import ResourceGraph.Dict
import ResourceGraph.Number.Double

namespace ResourceGraph

/-- Integers and decimals are told apart by how they are written: `1` and `1.0` differ. -/
inductive Number where
  | int (value : Int)
  | float (value : Double)
  deriving DecidableEq, Repr

inductive Json where
  | null
  | bool (value : Bool)
  | number (value : Number)
  | string (value : String)
  | array (items : List Json)
  | object (members : List (String × Json))
  deriving Repr, Inhabited

namespace Json

mutual

def decEq : (a b : Json) → Decidable (a = b)
  | .null, .null => isTrue rfl
  | .bool a, .bool b => decidable_of_iff (a = b) (by simp)
  | .number a, .number b => decidable_of_iff (a = b) (by simp)
  | .string a, .string b => decidable_of_iff (a = b) (by simp)
  | .array a, .array b => @decidable_of_iff _ (a = b) (by simp) (decEqItems a b)
  | .object a, .object b => @decidable_of_iff _ (a = b) (by simp) (decEqMembers a b)
  | .null, .bool _ | .null, .number _ | .null, .string _ | .null, .array _ | .null, .object _
  | .bool _, .null | .bool _, .number _ | .bool _, .string _ | .bool _, .array _
  | .bool _, .object _ | .number _, .null | .number _, .bool _ | .number _, .string _
  | .number _, .array _ | .number _, .object _ | .string _, .null | .string _, .bool _
  | .string _, .number _ | .string _, .array _ | .string _, .object _ | .array _, .null
  | .array _, .bool _ | .array _, .number _ | .array _, .string _ | .array _, .object _
  | .object _, .null | .object _, .bool _ | .object _, .number _ | .object _, .string _
  | .object _, .array _ => isFalse nofun

def decEqItems : (a b : List Json) → Decidable (a = b)
  | [], [] => isTrue rfl
  | [], _ :: _ | _ :: _, [] => isFalse nofun
  | a :: as, b :: bs =>
      match decEq a b, decEqItems as bs with
      | isTrue h, isTrue h' => isTrue (by rw [h, h'])
      | isFalse h, _ => isFalse fun e => h (List.cons.inj e).1
      | _, isFalse h => isFalse fun e => h (List.cons.inj e).2

def decEqMembers : (a b : List (String × Json)) → Decidable (a = b)
  | [], [] => isTrue rfl
  | [], _ :: _ | _ :: _, [] => isFalse nofun
  | (k, a) :: as, (l, b) :: bs =>
      if hk : k = l then
        match decEq a b, decEqMembers as bs with
        | isTrue h, isTrue h' => isTrue (by rw [hk, h, h'])
        | isFalse h, _ => isFalse fun e => h (Prod.mk.inj (List.cons.inj e).1).2
        | _, isFalse h => isFalse fun e => h (List.cons.inj e).2
      else isFalse fun e => hk (Prod.mk.inj (List.cons.inj e).1).1

end

instance : DecidableEq Json := decEq

mutual

/-- Members sorted by key at every level, the last of equal keys kept. -/
def canonical : Json → Json
  | .array items => .array (canonicalItems items)
  | .object members => .object (Dict.ofList (canonicalMembers members))
  | other => other

def canonicalItems : List Json → List Json
  | [] => []
  | x :: rest => x.canonical :: canonicalItems rest

def canonicalMembers : List (String × Json) → List (String × Json)
  | [] => []
  | (k, x) :: rest => (k, x.canonical) :: canonicalMembers rest

end

mutual

/-- How many containers enclose the innermost value. -/
def depth : Json → Nat
  | .array items => depthItems items + 1
  | .object members => depthMembers members + 1
  | _ => 0

def depthItems : List Json → Nat
  | [] => 0
  | x :: rest => max x.depth (depthItems rest)

def depthMembers : List (String × Json) → Nat
  | [] => 0
  | (_, x) :: rest => max x.depth (depthMembers rest)

end

def distinctNames : List String → Bool
  | [] => true
  | k :: rest => !rest.contains k && distinctNames rest

mutual

/-- No object at any level has a repeated key. -/
def hasDistinctKeys : Json → Bool
  | .array items => distinctItems items
  | .object members => distinctNames (members.map Prod.fst) && distinctMembers members
  | _ => true

def distinctItems : List Json → Bool
  | [] => true
  | x :: rest => x.hasDistinctKeys && distinctItems rest

def distinctMembers : List (String × Json) → Bool
  | [] => true
  | (_, x) :: rest => x.hasDistinctKeys && distinctMembers rest

end

def asString? : Json → Option String
  | .string s => some s
  | _ => none

def asObject? : Json → Option (Dict Json)
  | .object members => some members
  | _ => none

def asArray? : Json → Option (List Json)
  | .array items => some items
  | _ => none

def ofInt (n : Int) : Json := .number (.int n)

def ofStrings (texts : List String) : Json := .array (texts.map .string)

def ofDict (d : Dict Json) : Json := .object d

def ofStringDict (d : Dict String) : Json := .object (d.mapValues .string)

/-- An object of the fields that are present. -/
def record (fields : List (Option (String × Json))) : Json := .object (fields.filterMap id)

def field (name : String) (value : Json) : Option (String × Json) := some (name, value)

/-- A field that is left out when it is empty. -/
def fieldUnless (empty : Bool) (name : String) (value : Json) : Option (String × Json) :=
  if empty then none else some (name, value)

def fieldOf {α : Type} (name : String) (value : Option α) (write : α → Json) :
    Option (String × Json) :=
  value.map fun v => (name, write v)

theorem canonicalItems_eq_map (items : List Json) :
    canonicalItems items = items.map canonical := by
  induction items with
  | nil => rfl
  | cons x rest ih => simp [canonicalItems, ih]

theorem canonicalMembers_eq_map (members : List (String × Json)) :
    canonicalMembers members = members.map fun e => (e.1, e.2.canonical) := by
  induction members with
  | nil => rfl
  | cons x rest ih => simp [canonicalMembers, ih]

end Json

end ResourceGraph
