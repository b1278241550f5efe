import ResourceGraph.Number.Double
import Mathlib.Algebra.Order.Field.Power
import Mathlib.Data.Rat.Cast.Order
import Mathlib.Tactic.FieldSimp
import Mathlib.Tactic.Linarith
import Mathlib.Tactic.Positivity
import Mathlib.Tactic.Ring

namespace ResourceGraph.Double

/-- The exponent at which a value has a mantissa of 53 bits, or the least one. -/
structure Fits (x : ℚ) (e : ℤ) : Prop where
  least : minExponent ≤ e
  lt : x < 2 ^ (e + 53)
  full : 2 ^ (e + 52) ≤ x ∨ e = minExponent

theorem Fits.le {x : ℚ} {e e' : ℤ} (h : Fits x e) (h' : Fits x e') : e' ≤ e := by
  by_contra hlt
  rcases h'.full with hfull | rfl
  · have hpow : (2 : ℚ) ^ (e + 53) ≤ 2 ^ (e' + 52) :=
      zpow_le_zpow_right₀ (by norm_num) (by omega)
    exact absurd (lt_of_lt_of_le h.lt (hpow.trans hfull)) (lt_irrefl x)
  · exact hlt h.least

theorem Fits.unique {x : ℚ} {e e' : ℤ} (h : Fits x e) (h' : Fits x e') : e = e' :=
  le_antisymm (h'.le h) (h.le h')

section Scale

variable (num : Nat) {den : Nat} (e : ℤ)

theorem scale_den_pos (hden : 0 < den) : 0 < (scale num den e).2 := by
  unfold scale
  split
  · exact Nat.mul_pos hden (Nat.pow_pos (by decide))
  · exact hden

theorem scale_ratio (hden : 0 < den) :
    ((scale num den e).1 : ℚ) / (scale num den e).2 = (num : ℚ) / den / 2 ^ e := by
  have hden' : (den : ℚ) ≠ 0 := by positivity
  unfold scale
  split
  · next h =>
    obtain ⟨k, rfl⟩ := Int.eq_ofNat_of_zero_le h
    simp only [Int.toNat_natCast, Nat.pow_eq, Nat.cast_mul, Nat.cast_pow, Nat.cast_ofNat,
      zpow_natCast]
    rw [div_div]
  · next h =>
    obtain ⟨k, hk⟩ := Int.eq_ofNat_of_zero_le (show 0 ≤ -e by omega)
    obtain rfl : e = -(k : ℤ) := by omega
    simp only [Int.neg_neg, Int.toNat_natCast, Nat.pow_eq, Nat.cast_mul, Nat.cast_pow,
      Nat.cast_ofNat, zpow_neg, zpow_natCast]
    field_simp

theorem scale_cross {num' den' : Nat} (h : num * den' = num' * den) :
    (scale num den e).1 * (scale num' den' e).2 = (scale num' den' e).1 * (scale num den e).2 := by
  unfold scale
  split
  · calc num * (den' * Nat.pow 2 e.toNat) = num * den' * Nat.pow 2 e.toNat := by ring
      _ = num' * den * Nat.pow 2 e.toNat := by rw [h]
      _ = num' * (den * Nat.pow 2 e.toNat) := by ring
  · calc num * Nat.pow 2 (-e).toNat * den' = num * den' * Nat.pow 2 (-e).toNat := by ring
      _ = num' * den * Nat.pow 2 (-e).toNat := by rw [h]
      _ = num' * Nat.pow 2 (-e).toNat * den := by ring

end Scale

theorem div_lt_pow_iff (num : Nat) {den : Nat} (hden : 0 < den) (e : ℤ) (k : Nat) :
    (scale num den e).1 < (scale num den e).2 * 2 ^ k ↔ (num : ℚ) / den < 2 ^ (e + k) := by
  have hpos : (0 : ℚ) < (scale num den e).2 := by exact_mod_cast scale_den_pos num e hden
  have htwo : (0 : ℚ) < 2 ^ e := by positivity
  have hratio := scale_ratio num e hden
  rw [div_eq_iff hpos.ne'] at hratio
  have hcast : ((scale num den e).1 < (scale num den e).2 * 2 ^ k) ↔
      ((scale num den e).1 : ℚ) < (scale num den e).2 * 2 ^ k := by
    exact_mod_cast Iff.rfl
  rw [hcast, hratio, mul_comm ((scale num den e).2 : ℚ), mul_lt_mul_iff_left₀ hpos,
    div_lt_iff₀ htwo, zpow_add₀ (by norm_num), zpow_natCast, mul_comm ((2 : ℚ) ^ e)]

theorem log2_bounds {num den : Nat} (hnum : num ≠ 0) (hden : den ≠ 0) :
    (2 : ℚ) ^ ((num.log2 : ℤ) - den.log2 - 1) < (num : ℚ) / den ∧
      (num : ℚ) / den < 2 ^ ((num.log2 : ℤ) - den.log2 + 1) := by
  have hnumLow : (2 : ℚ) ^ num.log2 ≤ num := by exact_mod_cast Nat.log2_self_le hnum
  have hnumHigh : (num : ℚ) < 2 ^ (num.log2 + 1) := by exact_mod_cast Nat.lt_log2_self
  have hdenLow : (2 : ℚ) ^ den.log2 ≤ den := by exact_mod_cast Nat.log2_self_le hden
  have hdenHigh : (den : ℚ) < 2 ^ (den.log2 + 1) := by exact_mod_cast Nat.lt_log2_self
  have hpos : (0 : ℚ) < den := by exact_mod_cast Nat.pos_of_ne_zero hden
  have htwo : (2 : ℚ) ≠ 0 := by norm_num
  constructor
  · rw [lt_div_iff₀ hpos]
    calc (2 : ℚ) ^ ((num.log2 : ℤ) - den.log2 - 1) * den
        < 2 ^ ((num.log2 : ℤ) - den.log2 - 1) * 2 ^ (den.log2 + 1) := by gcongr
      _ = 2 ^ num.log2 := by
          rw [← zpow_natCast, ← zpow_natCast, ← zpow_add₀ htwo]
          congr 1
          push_cast
          ring
      _ ≤ num := hnumLow
  · rw [div_lt_iff₀ hpos]
    calc (num : ℚ) < 2 ^ (num.log2 + 1) := hnumHigh
      _ = 2 ^ ((num.log2 : ℤ) - den.log2 + 1) * 2 ^ den.log2 := by
          rw [← zpow_natCast, ← zpow_natCast, ← zpow_add₀ htwo]
          congr 1
          push_cast
          ring
      _ ≤ 2 ^ ((num.log2 : ℤ) - den.log2 + 1) * den := by gcongr

theorem fits_fittingExponent {num den : Nat} (hnum : num ≠ 0) (hden : 0 < den) :
    Fits ((num : ℚ) / den) (fittingExponent num den) := by
  obtain ⟨hlow, hhigh⟩ := log2_bounds hnum hden.ne'
  have hfull := div_lt_pow_iff num hden ((num.log2 : ℤ) - den.log2 - 52) 52
  have hguess : ∀ g : ℤ, (num : ℚ) / den < 2 ^ (g + 53) → 2 ^ (g + 52) ≤ (num : ℚ) / den →
      Fits ((num : ℚ) / den) (max minExponent g) := by
    intro g hlt hle
    rcases le_total minExponent g with h | h
    · rw [max_eq_right h]
      exact ⟨h, hlt, .inl hle⟩
    · rw [max_eq_left h]
      refine ⟨le_rfl, hlt.trans_le ?_, .inr rfl⟩
      exact zpow_le_zpow_right₀ (by norm_num) (by omega)
  -- The guess from the binary digits is right, or one too large.
  have hcases : fittingExponent num den = max minExponent ((num.log2 : ℤ) - den.log2 - 52 - 1) ∧
        (num : ℚ) / den < 2 ^ ((num.log2 : ℤ) - den.log2 - 52 + (52 : Nat)) ∨
      fittingExponent num den = max minExponent ((num.log2 : ℤ) - den.log2 - 52) ∧
        ¬ (num : ℚ) / den < 2 ^ ((num.log2 : ℤ) - den.log2 - 52 + (52 : Nat)) := by
    rw [← hfull]
    unfold fittingExponent
    by_cases h : (scale num den ((num.log2 : ℤ) - den.log2 - 52)).1 <
        (scale num den ((num.log2 : ℤ) - den.log2 - 52)).2 * 2 ^ 52
    · exact .inl ⟨congrArg (max minExponent) (if_pos h), h⟩
    · exact .inr ⟨congrArg (max minExponent) (if_neg h), h⟩
  rcases hcases with ⟨heq, hlt⟩ | ⟨heq, hle⟩
  · rw [heq]
    refine hguess _ ?_ ?_
    · convert hlt using 2
      push_cast
      ring
    · rw [show (num.log2 : ℤ) - den.log2 - 52 - 1 + 52 = num.log2 - den.log2 - 1 by ring]
      exact hlow.le
  · rw [heq]
    refine hguess _ ?_ ?_
    · convert hhigh using 2
      ring
    · exact not_lt.mp hle

theorem roundQuotient_mul_left {num den k : Nat} (hk : 0 < k) :
    roundQuotient (k * num) (k * den) = roundQuotient num den := by
  have hlt : ∀ a b : Nat, k * a < k * b ↔ a < b := fun a b => Nat.mul_lt_mul_left hk
  simp only [roundQuotient, Nat.mul_div_mul_left _ _ hk, Nat.mul_mod_mul_left,
    Nat.mul_left_comm 2 k, hlt]

theorem roundQuotient_congr {num den num' den' : Nat} (h : num * den' = num' * den)
    (hden : 0 < den) (hden' : 0 < den') : roundQuotient num den = roundQuotient num' den' := by
  calc roundQuotient num den = roundQuotient (den' * num) (den' * den) :=
        (roundQuotient_mul_left hden').symm
    _ = roundQuotient (den * num') (den * den') := by
        rw [Nat.mul_comm den' num, h, Nat.mul_comm num' den, Nat.mul_comm den' den]
    _ = roundQuotient num' den' := roundQuotient_mul_left hden

theorem ofRatio?_eq (negative : Bool) {num den : Nat} {e : Int} (h : num ≠ 0)
    (he : fittingExponent num den = e) :
    ofRatio? negative num den =
      ofMantissa? negative (roundQuotient (scale num den e).1 (scale num den e).2) e := by
  rw [ofRatio?, if_neg h, he]

theorem ofRatio?_congr (negative : Bool) {num den num' den' : Nat} (h : num * den' = num' * den)
    (hden : 0 < den) (hden' : 0 < den') :
    ofRatio? negative num den = ofRatio? negative num' den' := by
  by_cases hnum : num = 0
  · obtain rfl : num' = 0 := by
      rw [hnum, Nat.zero_mul] at h
      exact (Nat.mul_eq_zero.mp h.symm).resolve_right hden.ne'
    rw [hnum, ofRatio?, ofRatio?, if_pos rfl, if_pos rfl]
  · have hnum' : num' ≠ 0 := by
      rintro rfl
      rw [Nat.zero_mul] at h
      exact (Nat.mul_eq_zero.mp h).elim hnum hden'.ne'
    have hvalue : (num : ℚ) / den = (num' : ℚ) / den' := by
      rw [div_eq_div_iff (by exact_mod_cast hden.ne') (by exact_mod_cast hden'.ne')]
      exact_mod_cast h
    have hexponent : fittingExponent num den = fittingExponent num' den' := by
      refine Fits.unique (fits_fittingExponent hnum hden) ?_
      rw [hvalue]
      exact fits_fittingExponent hnum' hden'
    have hmantissa := roundQuotient_congr (scale_cross num (fittingExponent num' den') h)
      (scale_den_pos num _ hden) (scale_den_pos num' _ hden')
    rw [ofRatio?_eq negative hnum hexponent, ofRatio?_eq negative hnum' rfl, hmantissa]

theorem roundQuotient_bounds (num den : Nat) :
    num / den ≤ roundQuotient num den ∧ roundQuotient num den ≤ num / den + 1 := by
  simp only [roundQuotient]
  have hmod := Nat.mod_two_eq_zero_or_one (num / den)
  split
  · omega
  · split <;> omega

theorem canonical_zero (negative : Bool) : (zero negative).Canonical := by
  cases negative <;> decide

theorem mantissaLimit_eq : mantissaLimit = 2 ^ 53 := by norm_num [mantissaLimit]

theorem fullMantissa_eq : fullMantissa = 2 ^ 52 := by norm_num [fullMantissa]

theorem canonical_of_ofMantissa? {negative : Bool} {m : Nat} {e : Int} {d : Double}
    (hlimit : m ≤ mantissaLimit) (hleast : minExponent ≤ e)
    (hfull : fullMantissa ≤ m ∨ e = minExponent) (h : ofMantissa? negative m e = some d) :
    d.Canonical := by
  unfold ofMantissa? at h
  by_cases hm : m = mantissaLimit
  · simp only [if_pos hm] at h
    split at h
    · exact nomatch h
    · next hmax =>
      rw [← Option.some.inj h]
      refine ⟨?_, ?_, Int.not_lt.mp hmax, .inl (Nat.le_refl _)⟩
      · show fullMantissa < mantissaLimit
        decide
      · exact Int.le_trans hleast (Int.le_add_one (Int.le_refl e))
  · simp only [if_neg hm] at h
    split at h
    · exact nomatch h
    · next hmax =>
      rw [← Option.some.inj h]
      exact ⟨Nat.lt_of_le_of_ne hlimit hm, hleast, Int.not_lt.mp hmax, hfull⟩

theorem canonical_of_ofRatio? {negative : Bool} {num den : Nat} {d : Double} (hden : 0 < den)
    (h : ofRatio? negative num den = some d) : d.Canonical := by
  by_cases hnum : num = 0
  · rw [ofRatio?, if_pos hnum] at h
    rw [← Option.some.inj h]
    exact canonical_zero negative
  · rw [ofRatio?_eq negative hnum rfl] at h
    have hfits := fits_fittingExponent hnum hden
    generalize fittingExponent num den = e at hfits h
    have hpos := scale_den_pos num e hden
    have hlt : (scale num den e).1 / (scale num den e).2 < mantissaLimit := by
      rw [mantissaLimit_eq]
      exact Nat.div_lt_of_lt_mul ((div_lt_pow_iff num hden e 53).mpr hfits.lt)
    obtain ⟨hlow, hhigh⟩ := roundQuotient_bounds (scale num den e).1 (scale num den e).2
    refine canonical_of_ofMantissa? (Nat.le_trans hhigh hlt) hfits.least ?_ h
    rcases hfits.full with hle | hmin
    · left
      refine Nat.le_trans ?_ hlow
      rw [Nat.le_div_iff_mul_le hpos, Nat.mul_comm, fullMantissa_eq]
      exact not_lt.mp fun hlt => absurd ((div_lt_pow_iff num hden e 52).mp hlt) (not_lt.mpr hle)
    · exact .inr hmin

theorem ratio_den_pos (d : Double) : 0 < d.ratio.2 := by
  unfold ratio
  split
  · exact Nat.one_pos
  · exact Nat.pow_pos (by decide)

theorem ratio_value (d : Double) : (d.ratio.1 : ℚ) / d.ratio.2 = d.mantissa * 2 ^ d.exponent := by
  unfold ratio
  split
  · next h =>
    obtain ⟨k, hk⟩ := Int.eq_ofNat_of_zero_le h
    simp [hk]
  · next h =>
    obtain ⟨k, hk⟩ := Int.eq_ofNat_of_zero_le (show 0 ≤ -d.exponent by omega)
    rw [show d.exponent = -(k : ℤ) by omega]
    simp only [Int.neg_neg, Int.toNat_natCast, Nat.pow_eq, Nat.cast_pow, Nat.cast_ofNat, zpow_neg,
      zpow_natCast]
    rw [div_eq_mul_inv]

/-- A double is what its own value is rounded to. -/
theorem ofRatio?_ratio {d : Double} (h : d.Canonical) (hd : d.mantissa ≠ 0) :
    ofRatio? d.negative d.ratio.1 d.ratio.2 = some d := by
  obtain ⟨hlimit, hmin, hmax, hfull⟩ := h
  have hpos := d.ratio_den_pos
  have hnum : d.ratio.1 ≠ 0 := by
    intro hzero
    have hvalue := d.ratio_value
    rw [hzero, Nat.cast_zero, zero_div, eq_comm, mul_eq_zero] at hvalue
    rcases hvalue with hvalue | hvalue
    · exact hd (by exact_mod_cast hvalue)
    · exact absurd hvalue (zpow_ne_zero _ (by norm_num))
  have htwo : (0 : ℚ) < 2 ^ d.exponent := by positivity
  -- Its own exponent is the one that fits, and there nothing is left to round.
  have hfits : Fits ((d.ratio.1 : ℚ) / d.ratio.2) d.exponent := by
    rw [ratio_value]
    refine ⟨hmin, ?_, ?_⟩
    · rw [zpow_add₀ (by norm_num), mul_comm]
      gcongr
      rw [mantissaLimit_eq] at hlimit
      exact_mod_cast hlimit
    · refine hfull.imp_left fun hfull => ?_
      rw [zpow_add₀ (by norm_num), mul_comm]
      gcongr
      rw [fullMantissa_eq] at hfull
      exact_mod_cast hfull
  have hexponent := Fits.unique (fits_fittingExponent hnum hpos) hfits
  have hspos := scale_den_pos d.ratio.1 d.exponent hpos
  have hscale : (scale d.ratio.1 d.ratio.2 d.exponent).1 =
      d.mantissa * (scale d.ratio.1 d.ratio.2 d.exponent).2 := by
    have hratio := scale_ratio d.ratio.1 d.exponent hpos
    rw [ratio_value, mul_div_assoc, div_self htwo.ne', mul_one,
      div_eq_iff (by exact_mod_cast hspos.ne')] at hratio
    exact_mod_cast hratio
  have hround : roundQuotient (scale d.ratio.1 d.ratio.2 d.exponent).1
      (scale d.ratio.1 d.ratio.2 d.exponent).2 = d.mantissa := by
    rw [roundQuotient_of_dvd hspos ⟨d.mantissa, by rw [hscale, Nat.mul_comm]⟩, hscale,
      Nat.mul_div_cancel _ hspos]
  rw [ofRatio?_eq d.negative hnum hexponent, hround, ofMantissa?]
  simp only [if_neg (Nat.ne_of_lt hlimit), if_neg (Int.not_lt.mpr hmax)]

theorem canonical_neg {d : Double} (h : d.Canonical) : d.neg.Canonical := h

end ResourceGraph.Double
