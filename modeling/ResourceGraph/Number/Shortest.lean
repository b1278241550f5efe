import ResourceGraph.Number.Double

namespace ResourceGraph.Double

structure Decimal where
  digits : Nat
  exponent : Int
  deriving DecidableEq, Repr

namespace Decimal

def toDouble? (c : Decimal) (negative : Bool) : Option Double :=
  ofDecimal? negative c.digits c.exponent

/-- Move trailing zeros of the digits into the exponent. -/
def stripZeros : Nat → Decimal → Decimal
  | 0, c => c
  | fuel + 1, c =>
      if c.digits ≠ 0 ∧ c.digits % 10 = 0 then stripZeros fuel ⟨c.digits / 10, c.exponent + 1⟩
      else c

end Decimal

def decimalScale (num den : Nat) (e : Int) : Nat × Nat :=
  if 0 ≤ e then (num, den * Nat.pow 10 e.toNat) else (num * Nat.pow 10 (-e).toNat, den)

/-- The `e` with `10 ^ (e - 1) ≤ num / den < 10 ^ e`, found from the number of binary digits. -/
def decimalExponent (num den : Nat) : Int :=
  let bits : Int := (num.log2 : Int) - den.log2
  let low : Int := (bits - 1) * 30103 / 100000
  let rec settle : Nat → Int → Int
    | 0, e => e
    | fuel + 1, e =>
        let (n, d) := decimalScale num den e
        if n < d then e else settle fuel (e + 1)
  settle 4 low

/-- The decimal on the grid of `10 ^ e` that reads back as `d`: of the two neighbours of `d` the
one that does, and the nearer one when both do. -/
def onGrid? (d : Double) (e : Int) : Option Decimal :=
  let (num, den) := d.ratio
  let (n, m) := decimalScale num den e
  let below : Decimal := ⟨n / m, e⟩
  let above : Decimal := ⟨n / m + 1, e⟩
  let belowNearer := 2 * (n % m) < m || (2 * (n % m) == m && n / m % 2 == 0)
  let (first, second) := if belowNearer then (below, above) else (above, below)
  if first.toDouble? d.negative = some d then some first
  else if second.toDouble? d.negative = some d then some second
  else none

/-- The exact value on the grid of `10 ^ minExponent`. -/
def exactDecimal (d : Double) : Decimal :=
  if 0 ≤ d.exponent then ⟨d.mantissa * Nat.pow 2 d.exponent.toNat, 0⟩
  else ⟨d.mantissa * Nat.pow 5 (-d.exponent).toNat, d.exponent⟩

/-- The shortest decimal that reads back as `d`. -/
def shortest (d : Double) : Decimal :=
  if d.mantissa = 0 then ⟨0, 0⟩
  else
    let (num, den) := d.ratio
    let top := decimalExponent num den
    let found := (List.range 17).findSome? fun n => onGrid? d (top - (n + 1 : Nat))
    (found.getD (exactDecimal d)).stripZeros 400

structure Layout where
  /-- written before an exponent that is not negative -/
  plus : String

def pointed : List Char → List Char
  | x :: y :: rest => x :: '.' :: y :: rest
  | digits => digits

/-- The characters of a decimal without a sign: positional from `0.00001` up to sixteen digits
before the point, and always with a point; otherwise one digit before the point and an exponent. -/
def Layout.body (layout : Layout) (c : Decimal) : List Char :=
  let digits := Nat.toDigits 10 c.digits
  let point : Int := digits.length + c.exponent
  let zeros (n : Int) : List Char := List.replicate n.toNat '0'
  if c.digits = 0 then ['0', '.', '0']
  else if 0 ≤ c.exponent ∧ point ≤ 16 then digits ++ zeros c.exponent ++ ['.', '0']
  else if 0 < point ∧ point ≤ 16 then
    digits.take point.toNat ++ ['.'] ++ digits.drop point.toNat
  else if -5 < point ∧ point ≤ 0 then ['0', '.'] ++ zeros (-point) ++ digits
  else
    let power := point - 1
    let sign := if power < 0 then ['-'] else layout.plus.toList
    pointed digits ++ ['e'] ++ sign ++ Nat.toDigits 10 power.natAbs

def Layout.render (layout : Layout) (negative : Bool) (c : Decimal) : String :=
  String.ofList (if negative then '-' :: layout.body c else layout.body c)

def text (layout : Layout) (d : Double) : String := layout.render d.negative d.shortest

theorem onGrid?_reads_back {d : Double} {e : Int} {c : Decimal} (h : d.onGrid? e = some c) :
    c.toDouble? d.negative = some d := by
  simp only [onGrid?] at h
  grind

end ResourceGraph.Double
