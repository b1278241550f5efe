namespace ResourceGraph.Text

def cutLast? (sep : Char) : List Char → Option (List Char × List Char)
  | [] => none
  | c :: rest =>
      match cutLast? sep rest with
      | some (before, after) => some (c :: before, after)
      | none => if c = sep then some ([], rest) else none

def cutFirst? (sep : Char) : List Char → Option (List Char × List Char)
  | [] => none
  | c :: rest =>
      if c = sep then some ([], rest)
      else (cutFirst? sep rest).map fun (before, after) => (c :: before, after)

/-- The parts between the occurrences of a character: one more than there are occurrences. -/
def split (sep : Char) : List Char → List (List Char)
  | [] => [[]]
  | c :: rest =>
      if c = sep then [] :: split sep rest
      else
        match split sep rest with
        | part :: parts => (c :: part) :: parts
        | [] => [[c]]

def dropStart? : List Char → List Char → Option (List Char)
  | [], text => some text
  | _ :: _, [] => none
  | w :: word, c :: text => if w = c then dropStart? word text else none

theorem cutLast?_eq_none {sep : Char} {cs : List Char} : cutLast? sep cs = none ↔ sep ∉ cs := by
  induction cs with
  | nil => simp [cutLast?]
  | cons c rest ih =>
      rw [cutLast?]
      cases h : cutLast? sep rest with
      | some p => simp_all
      | none =>
          rw [h] at ih
          by_cases hc : c = sep
          · simp [hc]
          · simpa [hc, Ne.symm hc] using ih

theorem cutLast?_eq_some {sep : Char} {cs before after : List Char}
    (h : cutLast? sep cs = some (before, after)) :
    cs = before ++ sep :: after ∧ sep ∉ after := by
  induction cs generalizing before with
  | nil => simp [cutLast?] at h
  | cons c rest ih =>
      cases hr : cutLast? sep rest with
      | some p =>
          obtain ⟨b, a⟩ := p
          simp only [cutLast?, hr, Option.some.injEq, Prod.mk.injEq] at h
          obtain ⟨rfl, rfl⟩ := h
          simpa using ih hr
      | none =>
          have hn := cutLast?_eq_none.1 hr
          by_cases hc : c = sep
          · simp only [cutLast?, hr, if_pos hc, Option.some.injEq, Prod.mk.injEq] at h
            obtain ⟨rfl, rfl⟩ := h
            exact ⟨by rw [hc]; rfl, hn⟩
          · simp [cutLast?, hr, hc] at h

theorem cutLast?_append {sep : Char} (before : List Char) {after : List Char} (h : sep ∉ after) :
    cutLast? sep (before ++ sep :: after) = some (before, after) := by
  induction before with
  | nil => simp [cutLast?, cutLast?_eq_none.2 h]
  | cons c rest ih => simp [cutLast?, ih]

theorem cutFirst?_eq_none {sep : Char} {cs : List Char} : cutFirst? sep cs = none ↔ sep ∉ cs := by
  induction cs with
  | nil => simp [cutFirst?]
  | cons c rest ih =>
      rw [cutFirst?]
      by_cases hc : c = sep
      · simp [hc]
      · simp [hc, Ne.symm hc, ih]

theorem cutFirst?_eq_some {sep : Char} {cs before after : List Char}
    (h : cutFirst? sep cs = some (before, after)) :
    cs = before ++ sep :: after ∧ sep ∉ before := by
  induction cs generalizing before with
  | nil => simp [cutFirst?] at h
  | cons c rest ih =>
      rw [cutFirst?] at h
      split at h
      · next hc =>
        obtain ⟨rfl, rfl⟩ : [] = before ∧ rest = after := by simpa using h
        simp [hc]
      · next hc =>
        obtain ⟨⟨before', _⟩, hrest, heq⟩ := Option.map_eq_some_iff.mp h
        obtain ⟨rfl, rfl⟩ := Prod.mk.inj heq
        obtain ⟨rfl, hsep⟩ := ih hrest
        simp [hsep, Ne.symm hc]

theorem cutFirst?_append {sep : Char} {before : List Char} (h : sep ∉ before) (after : List Char) :
    cutFirst? sep (before ++ sep :: after) = some (before, after) := by
  induction before with
  | nil => simp [cutFirst?]
  | cons c rest ih =>
      rw [List.mem_cons, not_or] at h
      simp [cutFirst?, Ne.symm h.1, ih h.2]

theorem dropStart?_eq_some_iff {word text rest : List Char} :
    dropStart? word text = some rest ↔ text = word ++ rest := by
  fun_induction dropStart? word text with
  | case1 text => simp [eq_comm]
  | case2 w word => simp
  | case3 w word text ih => simp [ih]
  | case4 w word c text hne => simp [Ne.symm hne]

theorem split_ne_nil (sep : Char) (cs : List Char) : split sep cs ≠ [] := by
  fun_cases split sep cs <;> simp_all

theorem split_of_not_mem {sep : Char} {part : List Char} (h : sep ∉ part) :
    split sep part = [part] := by
  induction part with
  | nil => rfl
  | cons c part ih =>
      rw [List.mem_cons, not_or] at h
      rw [split, if_neg (Ne.symm h.1), ih h.2]

theorem split_append (sep : Char) (before after : List Char) :
    split sep (before ++ sep :: after) = split sep before ++ split sep after := by
  induction before with
  | nil => simp [split]
  | cons c before ih =>
      by_cases hc : c = sep
      · simp [split, hc, ih]
      · obtain ⟨part, parts, hparts⟩ := List.exists_cons_of_ne_nil (split_ne_nil sep before)
        simp [split, hc, ih, hparts]

theorem split_append_cons {sep : Char} {part : List Char} (h : sep ∉ part) (rest : List Char) :
    split sep (part ++ sep :: rest) = part :: split sep rest := by
  rw [split_append, split_of_not_mem h]
  rfl

theorem split_flatMap {sep : Char} {parts : List (List Char)} (h : ∀ part ∈ parts, sep ∉ part)
    (rest : List Char) :
    split sep ((parts.flatMap fun part => part ++ [sep]) ++ rest) = parts ++ split sep rest := by
  induction parts with
  | nil => rfl
  | cons part parts ih =>
      rw [List.flatMap_cons, List.append_assoc, List.append_assoc, List.singleton_append,
        split_append_cons (h part List.mem_cons_self),
        ih fun p hp => h p (List.mem_cons_of_mem part hp)]
      rfl

end ResourceGraph.Text
