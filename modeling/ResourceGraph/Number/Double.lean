/-!
Finite double precision numbers as exact dyadic fractions. Every operation computes the exact
rational result first and rounds it once to the nearest representable number.
-/

namespace ResourceGraph

/-- The number `± mantissa * 2 ^ exponent`. The sign is kept for zero as well. -/
structure Double where
  negative : Bool
  mantissa : Nat
  exponent : Int
  deriving DecidableEq, Repr

namespace Double

/-- The least exponent: the spacing of the smallest numbers is `2 ^ minExponent`. -/
def minExponent : Int := -1074

def maxExponent : Int := 971

def mantissaLimit : Nat := 0x20000000000000

def fullMantissa : Nat := 0x10000000000000

/-- Mantissas have at most 53 bits; a shorter one occurs only with the least exponent. -/
def Canonical (d : Double) : Prop :=
  d.mantissa < mantissaLimit ∧ minExponent ≤ d.exponent ∧ d.exponent ≤ maxExponent ∧
    (fullMantissa ≤ d.mantissa ∨ d.exponent = minExponent)

instance (d : Double) : Decidable d.Canonical := inferInstanceAs (Decidable (_ ∧ _))

def zero (negative : Bool) : Double := ⟨negative, 0, minExponent⟩

def isZero (d : Double) : Bool := d.mantissa == 0

def neg (d : Double) : Double := { d with negative := !d.negative }

/-- The quotient rounded to the nearest natural number, a half to the even one. -/
def roundQuotient (num den : Nat) : Nat :=
  let q := num / den
  let twice := 2 * (num % den)
  if twice < den then q else if den < twice then q + 1 else q + q % 2

/-- `num / den` counted in steps of `2 ^ e`, as a fraction. -/
def scale (num den : Nat) (e : Int) : Nat × Nat :=
  if 0 ≤ e then (num, den * Nat.pow 2 e.toNat) else (num * Nat.pow 2 (-e).toNat, den)

/-- The exponent at which `num / den` has a mantissa of 53 bits, or the least exponent. -/
def fittingExponent (num den : Nat) : Int :=
  let guess : Int := (num.log2 : Int) - den.log2 - 52
  let (n, d) := scale num den guess
  max minExponent (if n < d * fullMantissa then guess - 1 else guess)

/-- The double of a rounded mantissa; there is none past the largest exponent. -/
def ofMantissa? (negative : Bool) (m : Nat) (e : Int) : Option Double :=
  -- Rounding up may reach the next power of two.
  let r : Double :=
    if m = mantissaLimit then ⟨negative, fullMantissa, e + 1⟩ else ⟨negative, m, e⟩
  if maxExponent < r.exponent then none else some r

/-- The double nearest to `± num / den`, a tie to the even mantissa. There is none when the
rounded value is past the largest finite double. -/
def ofRatio? (negative : Bool) (num den : Nat) : Option Double :=
  if num = 0 then some (zero negative)
  else
    let e := fittingExponent num den
    let (n, d) := scale num den e
    ofMantissa? negative (roundQuotient n d) e

def ratio (d : Double) : Nat × Nat :=
  if 0 ≤ d.exponent then (d.mantissa * Nat.pow 2 d.exponent.toNat, 1)
  else (d.mantissa, Nat.pow 2 (-d.exponent).toNat)

def ofNat? (negative : Bool) (n : Nat) : Option Double := ofRatio? negative n 1

def mul? (a b : Double) : Option Double :=
  let (na, da) := a.ratio
  let (nb, db) := b.ratio
  ofRatio? (a.negative != b.negative) (na * nb) (da * db)

def div? (a b : Double) : Option Double :=
  let (na, da) := a.ratio
  let (nb, db) := b.ratio
  ofRatio? (a.negative != b.negative) (na * db) (da * nb)

/-- The double nearest to `± digits * 10 ^ exponent`. Exponents far outside the range are
settled by the length of the digits alone. -/
def ofDecimal? (negative : Bool) (digits : Nat) (exponent : Int) : Option Double :=
  if digits = 0 then some (zero negative)
  else
    let magnitude := exponent + (Nat.toDigits 10 digits).length
    if 400 < magnitude then none
    else if magnitude < -400 then some (zero negative)
    else if 0 ≤ exponent then ofRatio? negative (digits * Nat.pow 10 exponent.toNat) 1
    else ofRatio? negative digits (Nat.pow 10 (-exponent).toNat)

/-- The integer that a double without fractional part equals. -/
def toInt? (d : Double) : Option Int :=
  let (n, den) := d.ratio
  if n % den = 0 then
    some (if d.negative then -((n / den : Nat) : Int) else ((n / den : Nat) : Int))
  else none

theorem roundQuotient_of_dvd {num den : Nat} (hd : 0 < den) (h : den ∣ num) :
    roundQuotient num den = num / den := by
  obtain ⟨k, rfl⟩ := h
  simp [roundQuotient, hd]

@[simp] theorem neg_neg (d : Double) : d.neg.neg = d := by
  cases d; simp [neg]

end Double

end ResourceGraph
