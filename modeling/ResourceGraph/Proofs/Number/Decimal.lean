import ResourceGraph.Number.Shortest
import ResourceGraph.Proofs.Number.Rounding

namespace ResourceGraph.Double

theorem length_toDigits_mul_ten {n : Nat} (h : 0 < n) :
    (Nat.toDigits 10 (n * 10)).length = (Nat.toDigits 10 n).length + 1 := by
  have happend := Nat.toDigits_append_toDigits (by decide : 1 < 10) h (by decide : 0 < 10)
  rw [Nat.add_zero, Nat.mul_comm] at happend
  rw [← happend, List.length_append, Nat.toDigits_zero]
  rfl

theorem ofDecimal?_mul_ten (negative : Bool) (digits : Nat) (e : Int) :
    ofDecimal? negative (digits * 10) e = ofDecimal? negative digits (e + 1) := by
  by_cases hdigits : digits = 0
  · simp [ofDecimal?, hdigits]
  have hmagnitude : e + ((Nat.toDigits 10 (digits * 10)).length : Nat) =
      e + 1 + ((Nat.toDigits 10 digits).length : Nat) := by
    rw [length_toDigits_mul_ten (Nat.pos_of_ne_zero hdigits)]
    omega
  have hmul : digits * 10 ≠ 0 := by omega
  unfold ofDecimal?
  rw [if_neg hdigits, if_neg hmul]
  simp only [hmagnitude]
  split
  · rfl
  · split
    · rfl
    -- A negative exponent puts its power of ten below the bar of the fraction.
    · rcases Int.lt_trichotomy e (-1) with hlt | rfl | hlt
      · obtain ⟨k, hk⟩ := Int.eq_ofNat_of_zero_le (show 0 ≤ -(e + 1) by omega)
        rw [if_neg (by omega), if_neg (by omega), hk,
          show (-e).toNat = k + 1 by omega, show Int.toNat (k : Int) = k from rfl]
        refine ofRatio?_congr negative ?_ (Nat.pow_pos (by decide)) (Nat.pow_pos (by decide))
        simp only [Nat.pow_eq]
        ring
      · rw [if_neg (by decide), if_pos (by decide)]
        refine ofRatio?_congr negative ?_ (Nat.pow_pos (by decide)) Nat.one_pos
        norm_num
      · obtain ⟨k, rfl⟩ := Int.eq_ofNat_of_zero_le (show 0 ≤ e by omega)
        rw [if_pos (by omega), if_pos (by omega)]
        refine ofRatio?_congr negative ?_ Nat.one_pos Nat.one_pos
        rw [show Int.toNat ((k : Int) + 1) = k + 1 from rfl,
          show Int.toNat (k : Int) = k from rfl]
        simp only [Nat.pow_eq]
        ring

theorem ofDecimal?_mul_pow_ten (negative : Bool) (digits k : Nat) (e : Int) :
    ofDecimal? negative (digits * 10 ^ k) e = ofDecimal? negative digits (e + k) := by
  induction k generalizing e with
  | zero => simp
  | succ k ih =>
      rw [Nat.pow_succ, ← Nat.mul_assoc, ofDecimal?_mul_ten, ih]
      congr 1
      push_cast
      ring

theorem Decimal.toDouble?_stripZeros (fuel : Nat) (c : Decimal) (negative : Bool) :
    (c.stripZeros fuel).toDouble? negative = c.toDouble? negative := by
  induction fuel generalizing c with
  | zero => rfl
  | succ fuel ih =>
      rw [stripZeros]
      split
      · next h =>
        rw [ih, toDouble?, toDouble?, ← ofDecimal?_mul_ten,
          Nat.div_mul_cancel (Nat.dvd_of_mod_eq_zero h.2)]
      · rfl

theorem length_toDigits_lt {n k : Nat} (h : n < 10 ^ k) (hk : 0 < k) :
    (Nat.toDigits 10 n).length ≤ k :=
  (Nat.length_toDigits_le_iff (by decide) hk).mpr h

theorem le_length_toDigits_add {m k : Nat} (hm : m ≠ 0) (hk : k ≤ 1074) :
    k ≤ (Nat.toDigits 10 (m * 5 ^ k)).length + 400 := by
  by_contra hlt
  have hdigits : m * 5 ^ k < 10 ^ (Nat.toDigits 10 (m * 5 ^ k)).length :=
    (Nat.length_toDigits_le_iff (by decide) Nat.length_toDigits_pos).mp (Nat.le_refl _)
  generalize (Nat.toDigits 10 (m * 5 ^ k)).length = l at hlt hdigits
  -- If `t` of `k` digits are missing, `10 ^ t` stays below `2 ^ k`.
  have hpowers : ∀ t n, l + t ≤ k → k ≤ n → 5 ^ k * 10 ^ t < 5 ^ k * 2 ^ n := by
    intro t n ht hn
    calc 5 ^ k * 10 ^ t ≤ m * 5 ^ k * 10 ^ t :=
          Nat.mul_le_mul_right _ (Nat.le_mul_of_pos_left _ (Nat.pos_of_ne_zero hm))
      _ < 10 ^ l * 10 ^ t := Nat.mul_lt_mul_of_pos_right hdigits (Nat.pow_pos (by decide))
      _ = 10 ^ (l + t) := (Nat.pow_add ..).symm
      _ ≤ 10 ^ k := Nat.pow_le_pow_right (by decide) ht
      _ = 5 ^ k * 2 ^ k := by rw [← Nat.mul_pow]
      _ ≤ 5 ^ k * 2 ^ n := Nat.mul_le_mul_left _ (Nat.pow_le_pow_right (by decide) hn)
  have hlast := Nat.lt_of_mul_lt_mul_left (hpowers 400 1074 (by omega) hk)
  exact absurd hlast (by decide +kernel)

theorem toDouble?_exactDecimal {d : Double} (h : d.Canonical) (hd : d.mantissa ≠ 0) :
    d.exactDecimal.toDouble? d.negative = some d := by
  obtain ⟨hlimit, hmin, hmax, hfull⟩ := id h
  rw [mantissaLimit_eq] at hlimit
  simp only [minExponent, maxExponent] at hmin hmax
  have hround := ofRatio?_ratio h hd
  unfold ratio at hround
  unfold exactDecimal
  split
  · next hexp =>
    rw [if_pos hexp] at hround
    obtain ⟨k, hk⟩ := Int.eq_ofNat_of_zero_le hexp
    rw [hk, show Int.toNat (k : Int) = k from rfl, Nat.pow_eq] at hround ⊢
    have hlt : d.mantissa * 2 ^ k < 10 ^ 400 := by
      calc d.mantissa * 2 ^ k < 2 ^ 53 * 2 ^ k := by gcongr
        _ ≤ 2 ^ 53 * 2 ^ 971 := by
            gcongr
            · decide
            · omega
        _ < 10 ^ 400 := by decide +kernel
    have hlen := length_toDigits_lt hlt (by decide)
    have hne : d.mantissa * 2 ^ k ≠ 0 := Nat.mul_ne_zero hd (by positivity)
    unfold Decimal.toDouble? ofDecimal?
    dsimp only
    rw [if_neg hne, if_neg (by omega), if_neg (by omega), if_pos (by decide)]
    simpa using hround
  · next hexp =>
    rw [if_neg hexp] at hround
    obtain ⟨k, hk⟩ := Int.eq_ofNat_of_zero_le (show 0 ≤ -d.exponent by omega)
    rw [hk, show Int.toNat (k : Int) = k from rfl, Nat.pow_eq] at hround ⊢
    rw [show d.exponent = -(k : Int) by omega] at hexp ⊢
    have hne : d.mantissa * 5 ^ k ≠ 0 := Nat.mul_ne_zero hd (by positivity)
    have hlen : (Nat.toDigits 10 (d.mantissa * 5 ^ k)).length ≤ k + 400 := by
      refine length_toDigits_lt ?_ (by omega)
      calc d.mantissa * 5 ^ k < 2 ^ 53 * 5 ^ k := by gcongr
        _ ≤ 10 ^ 400 * 10 ^ k :=
            Nat.mul_le_mul (by decide +kernel) (Nat.pow_le_pow_left (by decide) k)
        _ = 10 ^ (k + 400) := by rw [Nat.pow_add, Nat.mul_comm]
    have hlow := le_length_toDigits_add hd (show k ≤ 1074 by omega)
    unfold Decimal.toDouble? ofDecimal?
    dsimp only
    rw [if_neg hne, if_neg (by omega), if_neg (by omega), if_neg hexp, Int.neg_neg,
      show Int.toNat (k : Int) = k from rfl, ← hround]
    refine ofRatio?_congr d.negative ?_ (Nat.pow_pos (by decide)) (Nat.pow_pos (by decide))
    rw [Nat.pow_eq, show (10 : Nat) = 5 * 2 from rfl, Nat.mul_pow]
    ring

theorem toDouble?_shortest {d : Double} (h : d.Canonical) (hd : d.mantissa ≠ 0) :
    d.shortest.toDouble? d.negative = some d := by
  unfold shortest
  rw [if_neg hd]
  simp only
  rw [Decimal.toDouble?_stripZeros]
  cases hfound : (List.range 17).findSome? fun n =>
      d.onGrid? (decimalExponent d.ratio.1 d.ratio.2 - ((n + 1 : Nat) : Int)) with
  | none => exact toDouble?_exactDecimal h hd
  | some c =>
      obtain ⟨n, -, hn⟩ := List.exists_of_findSome?_eq_some hfound
      exact onGrid?_reads_back hn

end ResourceGraph.Double
