import ResourceGraph.Json.Value
import ResourceGraph.Text.Split

namespace ResourceGraph

abbrev Pointer := List String

namespace Pointer

def unescape : List Char → List Char
  | '~' :: '1' :: rest => '/' :: unescape rest
  | '~' :: '0' :: rest => '~' :: unescape rest
  | c :: rest => c :: unescape rest
  | [] => []

/-- Every `~` is followed by `0` or `1`. -/
def isEscaped : List Char → Bool
  | '~' :: '1' :: rest | '~' :: '0' :: rest => isEscaped rest
  | '~' :: _ => false
  | _ :: rest => isEscaped rest
  | [] => true

def tokens (text : String) : Pointer :=
  ((Text.split '/' text.toList).drop 1).map fun t => String.ofList (unescape t)

/-- The pointer that a text denotes, whose escapes need not be proper. -/
def ofTextLoosely? (text : String) : Option Pointer :=
  match text.toList with
  | [] => some []
  | '/' :: _ => some (tokens text)
  | _ => none

def ofText? (text : String) : Option Pointer :=
  if isEscaped text.toList then ofTextLoosely? text else none

/-- Indices have at most 64 bits. -/
def indexLimit : Nat := 0x10000000000000000

def digits? (cs : List Char) : Option Nat :=
  if cs.isEmpty || !cs.all (fun c => '0' ≤ c && c ≤ '9') then none
  else
    let n := cs.foldl (fun n c => n * 10 + (c.toNat - '0'.toNat)) 0
    if n < indexLimit then some n else none

/-- An index as it is written: digits without a leading zero. -/
def index? (token : String) : Option Nat :=
  match token.toList with
  | '0' :: _ :: _ => none
  | cs => digits? cs

/-- Digits that mean an index, zeros and a plus sign before them allowed. -/
def looseIndex? (token : String) : Option Nat :=
  match token.toList with
  | '+' :: cs => digits? cs
  | cs => digits? cs

end Pointer

namespace Json

def child? (token : String) : Json → Option Json
  | .object members => Dict.get? members token
  | .array items => (Pointer.index? token).bind fun i => items[i]?
  | _ => none

def at? : Pointer → Json → Option Json
  | [], x => some x
  | t :: rest, x => (x.child? t).bind (at? rest)

/-- Change the child that a token names. -/
def descend? (token : String) (f : Json → Option Json) : Json → Option Json
  | .object members => do
      let y ← f (← Dict.get? members token)
      return .object (Dict.insert members token y)
  | .array items => do
      let i ← Pointer.index? token
      let y ← f (← items[i]?)
      return .array (items.set i y)
  | _ => none

/-- Give an object a member, or an array an item before an index; `-` and the length of an array
stand for its end. -/
def insertChild? (token : String) (value : Json) : Json → Option Json
  | .object members => some (.object (Dict.insert members token value))
  | .array items =>
      if token = "-" then some (.array (items ++ [value]))
      else
        match Pointer.index? token with
        | some i => if i ≤ items.length then some (.array (items.insertIdx i value)) else none
        | none => none
  | _ => none

def removeChild? (token : String) : Json → Option Json
  | .object members =>
      if Dict.contains members token then some (.object (Dict.erase members token)) else none
  | .array items =>
      match Pointer.index? token with
      | some i => if i < items.length then some (.array (items.eraseIdx i)) else none
      | none => none
  | _ => none

def addAt? (value : Json) : Pointer → Json → Option Json
  | [], _ => some value
  | [t], x => insertChild? t value x
  | t :: rest@(_ :: _), x => x.descend? t (addAt? value rest)

/-- The whole document cannot be removed. -/
def removeAt? : Pointer → Json → Option Json
  | [], _ => none
  | [t], x => x.removeChild? t
  | t :: rest@(_ :: _), x => x.descend? t (removeAt? rest)

def replaceAt? (value : Json) : Pointer → Json → Option Json
  | [], _ => some value
  | t :: rest, x => x.descend? t (replaceAt? value rest)

mutual

/-- Equality of values, where zero equals negative zero. -/
def agrees : Json → Json → Bool
  | .null, .null => true
  | .bool a, .bool b => a == b
  | .number (.int a), .number (.int b) => a == b
  | .number (.float a), .number (.float b) => a == b || (a.isZero && b.isZero)
  | .string a, .string b => a == b
  | .array a, .array b => agreeItems a b
  | .object a, .object b => agreeMembers a b
  | _, _ => false

def agreeItems : List Json → List Json → Bool
  | [], [] => true
  | a :: as, b :: bs => agrees a b && agreeItems as bs
  | _, _ => false

def agreeMembers : List (String × Json) → List (String × Json) → Bool
  | [], [] => true
  | (k, a) :: as, (l, b) :: bs => k == l && agrees a b && agreeMembers as bs
  | _, _ => false

end

end Json

end ResourceGraph
