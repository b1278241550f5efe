import ResourceGraph.Json.Reader
import ResourceGraph.Proofs.Json.Canonical
import ResourceGraph.Proofs.Number.Rounding

namespace ResourceGraph

namespace Double

variable {a b d : Double}

theorem canonical_of_mul? (h : a.mul? b = some d) : d.Canonical :=
  canonical_of_ofRatio? (Nat.mul_pos a.ratio_den_pos b.ratio_den_pos) h

theorem ratio_num_pos (h : d.mantissa ≠ 0) : 0 < d.ratio.1 := by
  have hpos := Nat.pos_of_ne_zero h
  unfold ratio
  split
  · exact Nat.mul_pos hpos (Nat.pow_pos (by decide))
  · exact hpos

theorem canonical_of_div? (hb : b.mantissa ≠ 0) (h : a.div? b = some d) : d.Canonical :=
  canonical_of_ofRatio? (Nat.mul_pos a.ratio_den_pos (ratio_num_pos hb)) h

end Double

namespace Json

namespace Numeral

theorem mantissa_powerOfTen : ∀ n < 309, (powerOfTen n).mantissa ≠ 0 := by
  decide +kernel

theorem canonical_of_scaleByPower {fuel : Nat} {f d : Double} {e : Int} (hf : f.Canonical)
    (h : scaleByPower fuel f e = some d) : d.Canonical := by
  induction fuel generalizing f e with
  | zero => exact Option.some.inj h ▸ hf
  | succ fuel ih =>
      rw [scaleByPower] at h
      split at h
      · next hsmall =>
        split at h
        · exact Double.canonical_of_mul? h
        · exact Double.canonical_of_div? (mantissa_powerOfTen _ (by omega)) h
      · split at h
        · exact Option.some.inj h ▸ hf
        · split at h
          · exact nomatch h
          · obtain ⟨g, hg, hd⟩ := Option.bind_eq_some_iff.1 h
            exact ih (Double.canonical_of_div? (mantissa_powerOfTen 308 (by decide)) hg) hd

theorem canonical_of_toDouble? {negative : Bool} {significand : Nat} {e : Int} {d : Double}
    (h : toDouble? negative significand e = some d) : d.Canonical := by
  obtain ⟨f, hf, h⟩ := Option.bind_eq_some_iff.1 h
  obtain ⟨g, hg, h⟩ := Option.bind_eq_some_iff.1 h
  have hcanonical := canonical_of_scaleByPower (Double.canonical_of_ofRatio? Nat.one_pos hf) hg
  rw [← Option.some.inj h]
  split
  · exact Double.canonical_neg hcanonical
  · exact hcanonical

theorem extend_lt {significand : Nat} (h : significand < 0x10000000000000000)
    (digits : List Char) : (extend significand digits).1 < 0x10000000000000000 := by
  induction digits generalizing significand with
  | nil => exact h
  | cons c rest ih =>
      rw [extend]
      split
      · next hnext => exact ih hnext
      · exact h

theorem held_of_number? {n : Numeral} {v : Number} (h : n.number? = some v) : v.Held := by
  have hdouble : ∀ {m : Nat} {e : Int}, (toDouble? n.negative m e).map Number.float = some v →
      v.Held := by
    intro m e h
    obtain ⟨d, hd, rfl⟩ := Option.map_eq_some_iff.1 h
    exact canonical_of_toDouble? hd
  have hlt : (extend 0 n.whole).1 < 0x10000000000000000 := extend_lt (by decide) n.whole
  unfold number? at h
  split at h
  next significand dropped heq =>
  rw [heq] at hlt
  simp only at h
  split at h
  · split at h
    · exact hdouble h
    · split at h
      · obtain rfl := Option.some.inj h
        simp only [Number.Held, Yaml.Plain.inWord, Bool.and_eq_true, decide_eq_true_eq]
        omega
      · split at h
        · exact hdouble h
        · next hrange =>
          obtain rfl := Option.some.inj h
          simp only [Number.Held, Yaml.Plain.inWord, Bool.and_eq_true, decide_eq_true_eq]
          omega
  · exact hdouble h
  · exact hdouble h

end Numeral

namespace Written

theorem value?_ignored (w : Written) : value? .ignored w = some .null := by
  cases w <;> rfl

mutual

theorem held_of_value? (w : Written) {form : Form} {j : Json} (h : value? form w = some j) :
    j.Held := by
  by_cases hform : form = .ignored
  · rw [hform, value?_ignored] at h
    exact Option.some.inj h ▸ trivial
  cases w with
  | null =>
      rw [value?] at h
      · exact Option.some.inj h ▸ trivial
      · exact hform
  | bool b =>
      rw [value?] at h
      · exact Option.some.inj h ▸ trivial
      · exact hform
  | number n =>
      rw [value?] at h
      · obtain ⟨v, hv, rfl⟩ := Option.map_eq_some_iff.1 h
        exact Numeral.held_of_number? hv
      · exact hform
  | string signs =>
      rw [value?] at h
      · obtain ⟨s, -, rfl⟩ := Option.map_eq_some_iff.1 h
        trivial
      · exact hform
  | array items =>
      rw [value?] at h
      · obtain ⟨js, hjs, rfl⟩ := Option.map_eq_some_iff.1 h
        exact held_of_items? items hjs
      · exact hform
  | object members =>
      rw [value?] at h
      · obtain ⟨js, hjs, rfl⟩ := Option.map_eq_some_iff.1 h
        exact held_of_members? members hjs
      · exact hform

theorem held_of_items? (items : List Written) {form : Form} {js : List Json}
    (h : items? form items = some js) : HeldItems js := by
  match items with
  | [] => exact Option.some.inj h ▸ trivial
  | x :: rest =>
      rw [items?] at h
      obtain ⟨v, hv, h⟩ := Option.bind_eq_some_iff.1 h
      obtain ⟨vs, hvs, h⟩ := Option.bind_eq_some_iff.1 h
      obtain rfl := Option.some.inj h
      exact ⟨held_of_value? x hv, held_of_items? rest hvs⟩

theorem held_of_members? (members : List (List Sign × Written)) {form : Form}
    {js : List (String × Json)} (h : members? form members = some js) : HeldMembers js := by
  match members with
  | [] => exact Option.some.inj h ▸ trivial
  | (signs, x) :: rest =>
      rw [members?] at h
      obtain ⟨name, -, h⟩ := Option.bind_eq_some_iff.1 h
      obtain ⟨v, hv, h⟩ := Option.bind_eq_some_iff.1 h
      obtain ⟨vs, hvs, h⟩ := Option.bind_eq_some_iff.1 h
      obtain rfl := Option.some.inj h
      exact ⟨held_of_value? x hv, held_of_members? rest hvs⟩

end

end Written

theorem held_of_readAs? {form : Form} {text : String} {j : Json} (h : readAs? form text = some j) :
    j.Held := by
  obtain ⟨w, -, hj⟩ := Option.bind_eq_some_iff.1 h
  exact w.held_of_value? hj

end Json

end ResourceGraph
