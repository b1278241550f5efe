import ResourceGraph.Number.Double
import ResourceGraph.Yaml.Token

namespace ResourceGraph.Yaml

/-- The meaning of a scalar. An integer beyond 64 bits is kept apart from those in range. -/
inductive Plain where
  | null
  | bool (value : Bool)
  | int (value : Int)
  | wideInt
  | float (value : Double)
  | infinity (negative : Bool)
  | notANumber
  | text
  deriving DecidableEq, Repr

namespace Plain

def isNull (s : String) : Bool := s ∈ ["null", "Null", "NULL", "~"]

def bool? (s : String) : Option Bool :=
  if s ∈ ["true", "True", "TRUE"] then some true
  else if s ∈ ["false", "False", "FALSE"] then some false
  else none

def digit? (c : Char) : Option Nat :=
  if '0' ≤ c ∧ c ≤ '9' then some (c.toNat - '0'.toNat)
  else if 'a' ≤ c ∧ c ≤ 'f' then some (c.toNat - 'a'.toNat + 10)
  else if 'A' ≤ c ∧ c ≤ 'F' then some (c.toNat - 'A'.toNat + 10)
  else none

def natural? (base : Nat) (digits : List Char) : Option Nat :=
  if digits.isEmpty then none
  else digits.foldlM (fun n c => do
    let d ← digit? c
    if d < base then some (n * base + d) else none) 0

def isDigit (c : Char) : Bool := '0' ≤ c && c ≤ '9'

/-- A sign may precede, but an integer of several digits must not start with zero. -/
def hasLeadingZero (cs : List Char) : Bool :=
  let body := match cs with
    | '+' :: r | '-' :: r => r
    | r => r
  match body with
  | '0' :: rest => !rest.isEmpty && rest.all isDigit
  | _ => false

/-- `0x`, `0o` and `0b` introduce the bases sixteen, eight and two. -/
def based? : List Char → Option Nat
  | '0' :: 'x' :: digits => natural? 16 digits
  | '0' :: 'o' :: digits => natural? 8 digits
  | '0' :: 'b' :: digits => natural? 2 digits
  | _ => none

def integer? (cs : List Char) : Option Int :=
  let positive (body : List Char) : Option Int :=
    match based? body with
    | some n => some n
    | none => if hasLeadingZero cs then none else (natural? 10 body).map Int.ofNat
  match cs with
  | '+' :: body => positive body
  | '-' :: body =>
      match based? body with
      | some n => some (-(n : Int))
      | none => if hasLeadingZero cs then none else (natural? 10 body).map fun n => -(n : Int)
  | body => positive body

/-- An integer of 64 bits, one of them for the sign when it is negative. -/
def inWord (n : Int) : Bool := -0x8000000000000000 ≤ n && n < 0x10000000000000000

/-- An integer of 128 bits, one of them for the sign when it is negative. -/
def inDoubleWord (n : Int) : Bool :=
  -0x80000000000000000000000000000000 ≤ n && n < 0x100000000000000000000000000000000

def exponent? : List Char → Option Int
  | [] => some 0
  | e :: r =>
      if e ≠ 'e' ∧ e ≠ 'E' then none
      else match r with
        | '+' :: ds => (natural? 10 ds).map Int.ofNat
        | '-' :: ds => (natural? 10 ds).map fun n => -(n : Int)
        | ds => (natural? 10 ds).map Int.ofNat

def decimal? (negative : Bool) (cs : List Char) : Option Double := do
  let whole := cs.takeWhile isDigit
  let rest := cs.dropWhile isDigit
  let (fraction, rest) := match rest with
    | '.' :: r => (r.takeWhile isDigit, r.dropWhile isDigit)
    | r => ([], r)
  let significand ← natural? 10 (whole ++ fraction)
  let exponent ← exponent? rest
  Double.ofDecimal? negative significand (exponent - fraction.length)

/-- Decimals, infinities and the value that is no number. A decimal beyond the largest double is
none. -/
def float? (s : String) : Option Plain :=
  if s ∈ [".inf", ".Inf", ".INF", "+.inf", "+.Inf", "+.INF"] then some (.infinity false)
  else if s ∈ ["-.inf", "-.Inf", "-.INF"] then some (.infinity true)
  else if s ∈ [".nan", ".NaN", ".NAN"] then some .notANumber
  else
    let d := match s.toList with
      | '+' :: cs => decimal? false cs
      | '-' :: cs => decimal? true cs
      | cs => decimal? false cs
    d.map .float

def integerOf? (s : String) : Option Plain :=
  match integer? s.toList with
  | some n => if inWord n then some (.int n) else if inDoubleWord n then some .wideInt else none
  | none => none

/-- The meaning of a plain scalar without a tag. -/
def resolve (s : String) : Plain :=
  if s.isEmpty || isNull s then .null
  else match bool? s with
    | some b => .bool b
    | none =>
        match integerOf? s with
        | some p => p
        -- With zeros in front it is no decimal either.
        | none => if hasLeadingZero s.toList then .text else (float? s).getD .text

/-- The meaning of a scalar with its tag; none if the text does not suit a standard tag. Scalars
that are not plain and those with tags of other types are text; a local tag has no say here. -/
def ofScalar? (tag : Option Tag) (style : Style) (s : String) : Option Plain :=
  match tag with
  | some (.standard .bool) => (bool? s).map .bool
  | some (.standard .int) => integerOf? s
  | some (.standard .float) => float? s
  | some (.standard .null) => if isNull s then some .null else none
  | some .other => some .text
  | some (.named _) | some .unspelled | none =>
      some (if style = .plain then resolve s else .text)

end Plain

end ResourceGraph.Yaml
