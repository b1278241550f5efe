import ResourceGraph.Json.Written

namespace ResourceGraph.Json.Reader

def isBlank (c : Char) : Bool := c == ' ' || c == '\n' || c == '\t' || c == '\r'

def skipBlank (text : List Char) : List Char := text.dropWhile isBlank

def hexValue? (c : Char) : Option Nat :=
  if '0' ≤ c ∧ c ≤ '9' then some (c.toNat - '0'.toNat)
  else if 'a' ≤ c ∧ c ≤ 'f' then some (c.toNat - 'a'.toNat + 10)
  else if 'A' ≤ c ∧ c ≤ 'F' then some (c.toNat - 'A'.toNat + 10)
  else none

def unit? : List Char → Option (Nat × List Char)
  | a :: b :: c :: d :: rest => do
      let a ← hexValue? a
      let b ← hexValue? b
      let c ← hexValue? c
      let d ← hexValue? d
      return (((a * 16 + b) * 16 + c) * 16 + d, rest)
  | _ => none

def escape? : List Char → Option (Sign × List Char)
  | '"' :: r => some (.char '"', r)
  | '\\' :: r => some (.char '\\', r)
  | '/' :: r => some (.char '/', r)
  | 'b' :: r => some (.char '\x08', r)
  | 'f' :: r => some (.char '\x0c', r)
  | 'n' :: r => some (.char '\n', r)
  | 'r' :: r => some (.char '\r', r)
  | 't' :: r => some (.char '\t', r)
  | 'u' :: r => (unit? r).map fun (code, rest) => (.unit code, rest)
  | _ => none

/-- The signs up to the closing quote, which is dropped. -/
def signs : Nat → List Char → Option (List Sign × List Char)
  | 0, _ => none
  | _ + 1, [] => none
  | _ + 1, '"' :: rest => some ([], rest)
  | fuel + 1, '\\' :: rest => do
      let (s, rest) ← escape? rest
      let (ss, rest) ← signs fuel rest
      return (s :: ss, rest)
  | fuel + 1, c :: rest =>
      if c.toNat < 0x20 then none
      else do
        let (ss, rest) ← signs fuel rest
        return (.char c :: ss, rest)

/-- A string whose opening quote has been read. -/
def string (text : List Char) : Option (List Sign × List Char) := signs (text.length + 1) text

def afterWord? : List Char → List Char → Option (List Char)
  | [], text => some text
  | _ :: _, [] => none
  | w :: word, c :: text => if w = c then afterWord? word text else none

mutual

def value : Nat → List Char → Option (Written × List Char)
  | 0, _ => none
  | fuel + 1, text =>
      match skipBlank text with
      | 'n' :: rest => (afterWord? ['u', 'l', 'l'] rest).map (.null, ·)
      | 't' :: rest => (afterWord? ['r', 'u', 'e'] rest).map (.bool true, ·)
      | 'f' :: rest => (afterWord? ['a', 'l', 's', 'e'] rest).map (.bool false, ·)
      | '"' :: rest => (string rest).map fun (s, rest) => (.string s, rest)
      | '[' :: rest =>
          match skipBlank rest with
          | ']' :: rest => some (.array [], rest)
          | _ => (items fuel rest).map fun (xs, rest) => (.array xs, rest)
      | '{' :: rest =>
          match skipBlank rest with
          | '}' :: rest => some (.object [], rest)
          | _ => (members fuel rest).map fun (xs, rest) => (.object xs, rest)
      | other => (Numeral.parse? other).map fun (n, rest) => (.number n, rest)

def items : Nat → List Char → Option (List Written × List Char)
  | 0, _ => none
  | fuel + 1, text => do
      let (x, rest) ← value fuel text
      match skipBlank rest with
      | ',' :: rest => do
          let (xs, rest) ← items fuel rest
          return (x :: xs, rest)
      | ']' :: rest => return ([x], rest)
      | _ => none

def members : Nat → List Char → Option (List (List Sign × Written) × List Char)
  | 0, _ => none
  | fuel + 1, text => do
      let rest ← afterWord? ['"'] (skipBlank text)
      let (k, rest) ← string rest
      let rest ← afterWord? [':'] (skipBlank rest)
      let (x, rest) ← value fuel rest
      match skipBlank rest with
      | ',' :: rest => do
          let (xs, rest) ← members fuel rest
          return ((k, x) :: xs, rest)
      | '}' :: rest => return ([(k, x)], rest)
      | _ => none

end

end ResourceGraph.Json.Reader

namespace ResourceGraph.Json

def Written.parse? (text : String) : Option Written := do
  let (x, rest) ← Reader.value (text.length + 1) text.toList
  if (Reader.skipBlank rest).isEmpty then some x else none

def readAs? (form : Form) (text : String) : Option Json :=
  (Written.parse? text).bind (Written.value? form)

def read? (text : String) : Option Json := readAs? .whole text

end ResourceGraph.Json
