import ResourceGraph.Json.Writer
import ResourceGraph.Proofs.Yaml.Cursor
import ResourceGraph.Yaml.Token.Scalar

namespace ResourceGraph.Yaml.Scalar

open Json.Writer

theorem isBreak_of_printable {x : Char} (h : 0x20 ≤ x.toNat ∧ x.toNat < 0x7F) :
    isBreak x = false := by
  simp only [isBreak, Bool.or_eq_false_iff, beq_eq_false_iff_ne]
  refine ⟨⟨⟨⟨?_, ?_⟩, ?_⟩, ?_⟩, ?_⟩ <;> rintro rfl
  · exact absurd h (by decide)
  · exact absurd h (by decide)
  · exact absurd h (by decide)
  · exact absurd h (by decide)
  · exact absurd h (by decide)

structure Names (w : List Char) (c : Char) : Prop where
  escape? : ∀ rest, escape? (w ++ rest) = some (c, w.length)
  printable : ∀ x ∈ w, 0x20 ≤ x.toNat ∧ x.toNat < 0x7F
  ne_nil : w ≠ []

theorem Names.isBreak_eq_false {w : List Char} {c x : Char} (h : Names w c) (hx : x ∈ w) :
    isBreak x = false :=
  isBreak_of_printable (h.printable x hx)

theorem names_letter {x c : Char} (h : ∀ rest, escape? (x :: rest) = some (c, 1))
    (hprintable : 0x20 ≤ x.toNat ∧ x.toNat < 0x7F) : Names [x] c where
  escape? := h
  printable y hy := by
    rw [List.mem_singleton.1 hy]
    exact hprintable
  ne_nil := List.cons_ne_nil x []

theorem hexDigit_printable :
    ∀ n < 16, 0x20 ≤ (hexDigit n).toNat ∧ (hexDigit n).toNat < 0x7F := by
  decide +kernel

theorem hex?_hexDigits :
    ∀ n < 32, hex? 4 0 ['0', '0', hexDigit (n / 16), hexDigit (n % 16)] = some n := by
  decide +kernel

theorem hex?_append {n v m : Nat} {digits : List Char} (h : hex? n v digits = some m)
    (rest : List Char) : hex? n v (digits ++ rest) = some m := by
  induction n generalizing v digits with
  | zero => rw [hex?] at h ⊢; exact h
  | succ n ih =>
      cases digits with
      | nil => simp [hex?] at h
      | cons x digits =>
          rw [List.cons_append, hex?]
          rw [hex?] at h
          split at h
          · next hx => rw [if_pos hx]; exact ih h
          · next hx =>
              rw [if_neg hx]
              split at h
              · next hx => rw [if_pos hx]; exact ih h
              · next hx =>
                  rw [if_neg hx]
                  split at h
                  · next hx => rw [if_pos hx]; exact ih h
                  · exact absurd h (by simp)

theorem names_unit {c : Char} (hc : c.toNat < 0x20) :
    Names ['u', '0', '0', hexDigit (c.toNat / 16), hexDigit (c.toNat % 16)] c where
  escape? rest := by
    have hvalue := hex?_append (hex?_hexDigits c.toNat hc) rest
    have hrange : ¬((0xD800 ≤ c.toNat ∧ c.toNat ≤ 0xDFFF) ∨ 0x10FFFF < c.toNat) := by omega
    rw [List.cons_append, Scalar.escape?]
    simp only [hvalue, Option.bind_eq_bind, Option.bind_some, if_neg hrange, Char.ofNat_toNat]
    rfl
  printable x hx := by
    have hhigh := hexDigit_printable (c.toNat / 16) (by omega)
    have hlow := hexDigit_printable (c.toNat % 16) (by omega)
    simp only [List.mem_cons, List.not_mem_nil, or_false] at hx
    rcases hx with rfl | rfl | rfl | rfl | rfl
    · decide
    · decide
    · decide
    · exact hhigh
    · exact hlow
  ne_nil := List.cons_ne_nil _ _

theorem escape_cases (c : Char) :
    (escape c = [c] ∧ c ≠ '"' ∧ c ≠ '\\' ∧ 0x20 ≤ c.toNat) ∨
      (∃ w, escape c = '\\' :: w ∧ Names w c) ∧ c.toNat < 0x7F := by
  by_cases hquote : c = '"'
  · subst hquote
    exact .inr ⟨⟨['"'], rfl, names_letter (fun _ => rfl) (by decide)⟩, by decide⟩
  by_cases hslash : c = '\\'
  · subst hslash
    exact .inr ⟨⟨['\\'], rfl, names_letter (fun _ => rfl) (by decide)⟩, by decide⟩
  by_cases hcontrol : c.toNat < 0x20
  · refine .inr ⟨?_, by omega⟩
    by_cases hb : c = '\x08'
    · subst hb
      exact ⟨['b'], rfl, names_letter (fun _ => rfl) (by decide)⟩
    by_cases hf : c = '\x0c'
    · subst hf
      exact ⟨['f'], rfl, names_letter (fun _ => rfl) (by decide)⟩
    by_cases hn : c = '\n'
    · subst hn
      exact ⟨['n'], rfl, names_letter (fun _ => rfl) (by decide)⟩
    by_cases hr : c = '\r'
    · subst hr
      exact ⟨['r'], rfl, names_letter (fun _ => rfl) (by decide)⟩
    by_cases ht : c = '\t'
    · subst ht
      exact ⟨['t'], rfl, names_letter (fun _ => rfl) (by decide)⟩
    refine ⟨_, ?_, names_unit hcontrol⟩
    simp only [escape, hquote, hslash, hb, hf, hn, hr, ht, hcontrol, if_true, if_false]
  · have hne : ∀ x : Char, x.toNat < 0x20 → c ≠ x := by
      rintro x hx rfl
      exact hcontrol hx
    refine .inl ⟨?_, hquote, hslash, Nat.not_lt.1 hcontrol⟩
    simp only [escape, hquote, hslash, hne '\x08' (by decide), hne '\x0c' (by decide),
      hne '\n' (by decide), hne '\r' (by decide), hne '\t' (by decide), hcontrol, if_false]

end ResourceGraph.Yaml.Scalar
