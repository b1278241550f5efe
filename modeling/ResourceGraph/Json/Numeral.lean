import ResourceGraph.Json.Value

/-!
JSON numbers as they are written, and their values. A number without fraction and exponent is an
integer when it fits into 64 bits (with the sign bit when negative). Any other is a double: its
leading digits that fit into a 64-bit significand are rounded to a double, which is then multiplied
or divided once by a rounded power of ten.
-/

namespace ResourceGraph.Json

structure Numeral where
  negative : Bool
  whole : List Char
  fraction : Option (List Char)
  exponent : Option Int
  deriving DecidableEq, Repr

namespace Numeral

def isDigit (c : Char) : Bool := '0' ≤ c && c ≤ '9'

def digitValue (c : Char) : Nat := c.toNat - '0'.toNat

/-- Extend a significand by digits as long as it stays below `2 ^ 64`, and say how many digits
did not fit. No digit is taken after the first that does not fit. -/
def extend : Nat → List Char → Nat × Nat
  | significand, [] => (significand, 0)
  | significand, c :: rest =>
      let next := significand * 10 + digitValue c
      if next < 0x10000000000000000 then extend next rest else (significand, rest.length + 1)

def powerOfTen (n : Nat) : Double := (Double.ofNat? false (Nat.pow 10 n)).getD (Double.zero false)

/-- Multiply or divide by a power of ten up to `10 ^ 308`; smaller powers are reached in several
divisions, and three of them bring every double to zero. There is no result past the largest
double. -/
def scaleByPower : Nat → Double → Int → Option Double
  | 0, f, _ => some f
  | fuel + 1, f, exponent =>
      if exponent.natAbs ≤ 308 then
        if 0 ≤ exponent then f.mul? (powerOfTen exponent.toNat)
        else f.div? (powerOfTen (-exponent).toNat)
      else if f.isZero then some f
      else if 0 ≤ exponent then none
      else (f.div? (powerOfTen 308)).bind fun g => scaleByPower fuel g (exponent + 308)

def toDouble? (negative : Bool) (significand : Nat) (exponent : Int) : Option Double := do
  let f ← Double.ofNat? false significand
  let g ← scaleByPower 4 f exponent
  return if negative then g.neg else g

def parseExponent? : List Char → Option (Option Int × List Char)
  | 'e' :: rest | 'E' :: rest =>
      let (negative, rest) := match rest with
        | '+' :: r => (false, r)
        | '-' :: r => (true, r)
        | r => (false, r)
      let digits := rest.takeWhile isDigit
      if digits.isEmpty then none
      else
        let value : Int := (digits.foldl (fun n c => n * 10 + digitValue c) 0 : Nat)
        some (some (if negative then -value else value), rest.dropWhile isDigit)
  | rest => some (none, rest)

def parse? (text : List Char) : Option (Numeral × List Char) := do
  let (negative, text) := match text with
    | '-' :: r => (true, r)
    | r => (false, r)
  let whole := text.takeWhile isDigit
  let text := text.dropWhile isDigit
  if whole.isEmpty || (whole.head? == some '0' && whole.length > 1) then none
  let (fraction, text) ← match text with
    | '.' :: r =>
        let digits := r.takeWhile isDigit
        if digits.isEmpty then none else some (some digits, r.dropWhile isDigit)
    | r => some (none, r)
  let (exponent, text) ← parseExponent? text
  return (⟨negative, whole, fraction, exponent⟩, text)

/-- The value of a number; none if it lies past the largest double. -/
def number? (n : Numeral) : Option Number :=
  let (significand, dropped) := extend 0 n.whole
  let double (significand : Nat) (e : Int) : Option Number :=
    (toDouble? n.negative significand e).map .float
  match n.fraction, n.exponent with
  | none, none =>
      if 0 < dropped then double significand dropped
      else if !n.negative then some (.int significand)
      -- Only a double keeps the sign of zero.
      else if significand = 0 ∨ 0x8000000000000000 < significand then double significand 0
      else some (.int (-(significand : Int)))
  | none, some e => double significand (dropped + e)
  | some digits, e =>
      let (significand, unused) := extend significand digits
      double significand (dropped - (digits.length - unused : Nat) + e.getD 0)

end Numeral

end ResourceGraph.Json
