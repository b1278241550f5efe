import ResourceGraph.Form
import ResourceGraph.Json.Numeral

/-!
JSON texts as they are written, and what they denote. A text is well formed when its signs are; it
denotes a value only if every escape in a text names a character and no number is too large, but not
where the reader ignores it.
-/

namespace ResourceGraph.Json

/-- A sign inside quotes: a character, or a code unit of sixteen bits written as `\uXXXX`. -/
inductive Sign where
  | char (c : Char)
  | unit (code : Nat)
  deriving DecidableEq, Repr

namespace Sign

def isHigh (code : Nat) : Bool := 0xD800 ≤ code && code ≤ 0xDBFF

def isLow (code : Nat) : Bool := 0xDC00 ≤ code && code ≤ 0xDFFF

def pair (high low : Nat) : Char :=
  Char.ofNat (0x10000 + (high - 0xD800) * 0x400 + (low - 0xDC00))

/-- The characters of signs: one outside the first plane is written as a pair of surrogates, and a
surrogate alone names none. -/
def chars? : List Sign → Option (List Char)
  | [] => some []
  | .char c :: rest => (chars? rest).map (c :: ·)
  | .unit high :: .unit low :: rest =>
      if isHigh high then if isLow low then (chars? rest).map (pair high low :: ·) else none
      else if isLow high then none
      else (chars? (.unit low :: rest)).map (Char.ofNat high :: ·)
  | .unit code :: rest =>
      if isHigh code || isLow code then none else (chars? rest).map (Char.ofNat code :: ·)

def text? (signs : List Sign) : Option String := (chars? signs).map String.ofList

end Sign

inductive Written where
  | null
  | bool (value : Bool)
  | number (value : Numeral)
  | string (signs : List Sign)
  | array (items : List Written)
  | object (members : List (List Sign × Written))
  deriving Repr, Inhabited

namespace Written

mutual

def value? : Form → Written → Option Json
  | .ignored, _ | _, .null => some .null
  | _, .bool b => some (.bool b)
  | _, .number n => n.number?.map .number
  | _, .string signs => (Sign.text? signs).map .string
  | form, .array items => (items? form items).map .array
  | form, .object members => (members? form members).map .object

def items? : Form → List Written → Option (List Json)
  | _, [] => some []
  | form, x :: rest => do
      let v ← value? form.item x
      let vs ← items? form.afterItem rest
      return v :: vs

def members? : Form → List (List Sign × Written) → Option (List (String × Json))
  | _, [] => some []
  | form, (signs, x) :: rest => do
      let name ← Sign.text? signs
      let v ← value? (form.member name) x
      let vs ← members? form rest
      return (name, v) :: vs

end

end Written

end ResourceGraph.Json
