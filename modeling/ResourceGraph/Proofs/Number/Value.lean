import Mathlib.Data.Nat.Cast.Field
import ResourceGraph.Patcher.Workload
import ResourceGraph.Proofs.Number.Rounding

namespace ResourceGraph

namespace Double

def value (d : Double) : ℚ := (if d.negative then -1 else 1) * (d.mantissa * 2 ^ d.exponent)

theorem value_eq_ratio (d : Double) :
    d.value = (if d.negative then -1 else 1) * ((d.ratio.1 : ℚ) / d.ratio.2) := by
  rw [value, ratio_value]

theorem value_of_toInt? {d : Double} {n : ℤ} (h : d.toInt? = some n) : d.value = n := by
  have hden : (d.ratio.2 : ℚ) ≠ 0 := by exact_mod_cast d.ratio_den_pos.ne'
  rw [toInt?] at h
  simp only at h
  split at h
  · next hmod =>
    obtain rfl := Option.some.inj h
    rw [value_eq_ratio, ← Nat.cast_div (Nat.dvd_of_mod_eq_zero hmod) hden]
    split <;> simp only [Int.cast_neg, Int.cast_natCast, neg_one_mul, one_mul]
  · cases h

theorem toInt?_eq_none_iff {d : Double} : d.toInt? = none ↔ ¬d.ratio.2 ∣ d.ratio.1 := by
  rw [toInt?, Nat.dvd_iff_mod_eq_zero]
  simp only
  split <;> simp [*]

theorem toInt?_eq_some_iff {d : Double} {n : ℤ} : d.toInt? = some n ↔ d.value = n := by
  refine ⟨value_of_toInt?, fun h => ?_⟩
  have hden : (d.ratio.2 : ℚ) ≠ 0 := by exact_mod_cast d.ratio_den_pos.ne'
  -- The fraction is the integer up to its sign, so that nothing remains of the division.
  have hnum : (d.ratio.1 : ℤ) = (if d.negative then -n else n) * d.ratio.2 := by
    rw [value_eq_ratio] at h
    have hq : (d.ratio.1 : ℚ) = (if d.negative then -(n : ℚ) else n) * d.ratio.2 := by
      rw [← h]
      split <;> field_simp
    split at hq
    · simpa [*] using (by exact_mod_cast hq : (d.ratio.1 : ℤ) = -n * d.ratio.2)
    · simpa [*] using (by exact_mod_cast hq : (d.ratio.1 : ℤ) = n * d.ratio.2)
  have hdvd : d.ratio.2 ∣ d.ratio.1 := by
    have hint : (d.ratio.2 : ℤ) ∣ d.ratio.1 := ⟨_, by rw [hnum, mul_comm]⟩
    exact_mod_cast hint
  cases hread : d.toInt? with
  | none => exact absurd hdvd (toInt?_eq_none_iff.mp hread)
  | some m =>
      have hm : (m : ℚ) = n := (value_of_toInt? hread).symm.trans h
      rw [show m = n by exact_mod_cast hm]

end Double

namespace Number

def value : Number → ℚ
  | .int n => n
  | .float d => d.value

theorem normalize_eq_or (n : Number) : n.normalize = n ∨ ∃ k, n.normalize = .int k := by
  cases n with
  | int k => exact .inl rfl
  | float d =>
      rw [normalize]
      split
      · split
        · exact .inr ⟨_, rfl⟩
        · exact .inl rfl
      · exact .inl rfl

/-- A number keeps its value unless it is the decimal just past the largest word. -/
theorem value_normalize_iff (n : Number) :
    n.normalize.value = n.value ↔ ∀ d, n = .float d → d.value ≠ 2 ^ 63 := by
  cases n with
  | int k => simp [normalize]
  | float d =>
      have hlimit : d.value = 2 ^ 63 ↔ d.toInt? = some 0x8000000000000000 := by
        rw [Double.toInt?_eq_some_iff]
        norm_num
      simp only [Number.float.injEq, forall_eq', ne_eq, hlimit]
      rw [normalize]
      split
      · next k hk =>
        rw [hk, Option.some.injEq]
        split
        · next hrange =>
          rw [value, value, Double.value_of_toInt? hk, Int.cast_inj]
          omega
        · next hrange =>
          simp only [true_iff]
          omega
      · next hk => simp [hk]

end Number

end ResourceGraph
