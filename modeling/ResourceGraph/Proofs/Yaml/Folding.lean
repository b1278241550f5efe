import ResourceGraph.Proofs.Yaml.Quoted

namespace ResourceGraph.Yaml.Scalar

def isSeparator (x : Char) : Bool := x == '\u2028' || x == '\u2029'

/-- A text that quotes keep as it is: it has no NEL, and no separator stands next to a space or
before a document indicator. -/
def isKept : List Char → Bool
  | [] => true
  | x :: rest =>
      x != '\u0085' && !(x == ' ' && rest.head?.any isSeparator) &&
        !(isSeparator x && (rest.head? == some ' ' || isIndicator rest)) && isKept rest

theorem isSeparator_iff {x : Char} : isSeparator x = true ↔ x = '\u2028' ∨ x = '\u2029' := by
  simp [isSeparator]

theorem isBreak_of_isSeparator {x : Char} (h : isSeparator x = true) : isBreak x = true := by
  rcases isSeparator_iff.1 h with rfl | rfl <;> decide

theorem broken_of_isSeparator {x : Char} (h : isSeparator x = true) : Cursor.broken x = [x] :=
  if_pos (isSeparator_iff.1 h)

theorem gap_cases {x : Char} (h : isGap x = true) :
    x = ' ' ∨ x = '\u0085' ∨ isSeparator x = true := by
  rcases isGap_iff.1 h with rfl | rfl | hx
  · exact .inl rfl
  · exact .inr (.inl rfl)
  · exact .inr (.inr (isSeparator_iff.2 hx))

section Gaps

variable {g : List Char}

def breaksOf (g : List Char) : List Char := (g.filter isBreak).flatMap Cursor.broken

theorem length_broken (x : Char) : (Cursor.broken x).length = 1 := by
  rw [Cursor.broken]
  split <;> rfl

theorem length_breaksOf (g : List Char) : (breaksOf g).length = g.countP isBreak := by
  rw [breaksOf, List.length_flatMap, List.countP_eq_length_filter]
  simp [length_broken]

theorem foldl_extend_breaks (first more g : List Char) :
    g.foldl Gap.extend (.breaks first more) = .breaks first (more ++ breaksOf g) := by
  induction g generalizing more with
  | nil => simp [breaksOf]
  | cons x g ih =>
      cases hx : isBreak x <;> simp [Gap.extend, hx, ih, breaksOf]

theorem foldl_extend_blanks (text : List Char) (h : ∀ x ∈ g, isBreak x = false) :
    g.foldl Gap.extend (.blanks text) = .blanks (text ++ g) := by
  induction g generalizing text with
  | nil => simp
  | cons x g ih =>
      have hx := h x List.mem_cons_self
      simp [Gap.extend, hx, ih (text ++ [x]) fun y hy => h y (List.mem_cons_of_mem x hy)]

theorem foldl_extend_of_break (text : List Char) (h : ∃ x ∈ g, isBreak x = true) :
    ∃ x more, g.foldl Gap.extend (.blanks text) = .breaks (Cursor.broken x) more ∧
      Cursor.broken x ++ more = breaksOf g := by
  induction g generalizing text with
  | nil => simp at h
  | cons x g ih =>
      cases hx : isBreak x with
      | true =>
          refine ⟨x, breaksOf g, ?_, ?_⟩
          · simp [Gap.extend, hx, foldl_extend_breaks]
          · simp [breaksOf, hx]
      | false =>
          have hg : ∃ y ∈ g, isBreak y = true := by
            obtain ⟨y, hy, hbreak⟩ := h
            rcases List.mem_cons.1 hy with rfl | hy
            · exact absurd hbreak (by simp [hx])
            · exact ⟨y, hy, hbreak⟩
          obtain ⟨y, more, hfold, hmore⟩ := ih (text ++ [x]) hg
          refine ⟨y, more, ?_, ?_⟩
          · simpa [Gap.extend, hx] using hfold
          · simpa [breaksOf, hx] using hmore

theorem folded_of_unbroken (h : ∀ x ∈ g, isBreak x = false) : folded g = g := by
  rw [folded, foldl_extend_blanks [] h]
  rfl

theorem folded_of_break (h : ∃ x ∈ g, isBreak x = true) :
    folded g = breaksOf g ∨ breaksOf g = ['\n'] ∧ folded g = [' '] ∨
      breaksOf g = '\n' :: folded g ∧ folded g ≠ [] := by
  obtain ⟨x, more, hfold, hmore⟩ := foldl_extend_of_break [] h
  rw [folded, hfold, ← hmore]
  rw [Cursor.broken]
  split
  · next hx =>
      left
      rcases hx with rfl | rfl <;> rfl
  · cases more with
    | nil => exact .inr (.inl ⟨rfl, rfl⟩)
    | cons y more => exact .inr (.inr ⟨rfl, List.cons_ne_nil y more⟩)

theorem folded_ne_nil (hne : g ≠ []) : folded g ≠ [] := by
  by_cases h : ∃ x ∈ g, isBreak x = true
  · rcases folded_of_break h with heq | ⟨-, heq⟩ | ⟨-, heq⟩
    · have hpos : 0 < (breaksOf g).length := by
        rw [length_breaksOf, List.countP_pos_iff]
        exact h
      rw [heq]
      exact List.ne_nil_of_length_pos hpos
    · rw [heq]
      exact List.cons_ne_nil _ _
    · exact heq
  · rw [folded_of_unbroken (by simpa using h)]
    exact hne

theorem breaksOf_of_separators (h : ∀ x ∈ g, isSeparator x = true) : breaksOf g = g := by
  induction g with
  | nil => rfl
  | cons x g ih =>
      have hx := h x List.mem_cons_self
      have hrest := ih fun y hy => h y (List.mem_cons_of_mem x hy)
      rw [breaksOf] at hrest
      simp [breaksOf, isBreak_of_isSeparator hx, broken_of_isSeparator hx, hrest]

theorem folded_of_separators (h : ∀ x ∈ g, isSeparator x = true) : folded g = g := by
  cases g with
  | nil => rfl
  | cons x g =>
      have hx := h x List.mem_cons_self
      have hfirst : Gap.extend (.blanks []) x = .breaks [x] [] := by
        simp [Gap.extend, isBreak_of_isSeparator hx, broken_of_isSeparator hx]
      rw [folded, List.foldl_cons, hfirst, foldl_extend_breaks,
        breaksOf_of_separators fun y hy => h y (List.mem_cons_of_mem x hy)]
      rcases isSeparator_iff.1 hx with rfl | rfl <;> rfl

theorem length_folded_le_countP (h : ∃ x ∈ g, isBreak x = true) :
    (folded g).length ≤ g.countP isBreak := by
  rw [← length_breaksOf]
  rcases folded_of_break h with heq | ⟨hone, heq⟩ | ⟨heq, -⟩
  · rw [heq]
  · rw [hone, heq]
    rfl
  · rw [heq]
    simp

theorem length_folded_le (g : List Char) : (folded g).length ≤ g.length := by
  by_cases h : ∃ x ∈ g, isBreak x = true
  · exact (length_folded_le_countP h).trans List.countP_le_length
  · rw [folded_of_unbroken (by simpa using h)]

theorem not_mem_broken (x : Char) : '\u0085' ∉ Cursor.broken x := by
  rw [Cursor.broken]
  split
  · next hx => rcases hx with rfl | rfl <;> decide
  · decide

theorem not_mem_folded (h : '\u0085' ∈ g) : '\u0085' ∉ folded g := by
  have hbroken : '\u0085' ∉ breaksOf g := by
    simp only [breaksOf, List.mem_flatMap, not_exists, not_and]
    exact fun x _ => not_mem_broken x
  rcases folded_of_break ⟨_, h, by decide⟩ with heq | ⟨-, heq⟩ | ⟨heq, -⟩
  · rw [heq]
    exact hbroken
  · rw [heq]
    decide
  · rw [heq] at hbroken
    exact fun hmem => hbroken (List.mem_cons_of_mem _ hmem)

end Gaps

theorem isKept_space (g : List Char) :
    isKept (' ' :: g) = (!g.head?.any isSeparator && isKept g) := by
  have hspace : isSeparator ' ' = false := by decide
  simp [isKept, hspace]

theorem isKept_separator {x : Char} (hx : isSeparator x = true) (g : List Char) :
    isKept (x :: g) = (!(g.head? == some ' ' || isIndicator g) && isKept g) := by
  have hne : (x != '\u0085') = true ∧ (x == ' ') = false := by
    rcases isSeparator_iff.1 hx with rfl | rfl <;> decide
  simp [isKept, hne, hx]

theorem isKept_of_not_isGap {x : Char} (hx : isGap x = false) (g : List Char) :
    isKept (x :: g) = isKept g := by
  have hne : x ≠ ' ' ∧ x ≠ '\u0085' ∧ x ≠ '\u2028' ∧ x ≠ '\u2029' := by
    simpa [isGap, and_assoc] using hx
  have hseparator : isSeparator x = false := by simp [isSeparator, hne]
  simp [isKept, hne, hseparator]

@[simp] theorem isKept_next (g : List Char) : isKept ('\u0085' :: g) = false := by
  simp [isKept]

theorem isIndicator_of_gap {g : List Char} (h : g.head?.any isGap = true) :
    isIndicator g = false := by
  cases g with
  | nil => rfl
  | cons x g =>
      rcases isGap_iff.1 h with rfl | rfl | rfl | rfl <;> rfl

theorem isKept_of_spaces {g : List Char} (h : ∀ x ∈ g, x = ' ') : isKept g = true := by
  induction g with
  | nil => rfl
  | cons x g ih =>
      have hrest := ih fun y hy => h y (List.mem_cons_of_mem x hy)
      rw [h x List.mem_cons_self, isKept_space, hrest, Bool.and_true]
      cases g with
      | nil => rfl
      | cons y g =>
          rw [h y (by simp)]
          rfl

theorem isKept_of_separators {g : List Char} (h : ∀ x ∈ g, isSeparator x = true) :
    isKept g = true := by
  induction g with
  | nil => rfl
  | cons x g ih =>
      have hrest := ih fun y hy => h y (List.mem_cons_of_mem x hy)
      rw [isKept_separator (h x List.mem_cons_self), hrest, Bool.and_true]
      cases g with
      | nil => rfl
      | cons y g =>
          have hy := h y (by simp)
          rcases isSeparator_iff.1 hy with rfl | rfl <;> rfl

theorem spaces_or_separators {g : List Char} (hgap : ∀ x ∈ g, isGap x = true)
    (h : isKept g = true) : (∀ x ∈ g, x = ' ') ∨ ∀ x ∈ g, isSeparator x = true := by
  induction g with
  | nil => exact .inl (by simp)
  | cons x g ih =>
      have hrest := ih fun y hy => hgap y (List.mem_cons_of_mem x hy)
      rcases gap_cases (hgap x List.mem_cons_self) with rfl | rfl | hx
      · rw [isKept_space, Bool.and_eq_true] at h
        left
        rcases hrest h.2 with hspaces | hseparators
        · simpa using hspaces
        · cases g with
          | nil => simp
          | cons y g => simp [hseparators y List.mem_cons_self] at h
      · simp at h
      · rw [isKept_separator hx, Bool.and_eq_true] at h
        right
        rcases hrest h.2 with hspaces | hseparators
        · cases g with
          | nil => simpa using hx
          | cons y g => simp [hspaces y List.mem_cons_self] at h
        · simpa [hx] using hseparators

theorem folded_eq_iff {g : List Char} (hgap : ∀ x ∈ g, isGap x = true) :
    folded g = g ↔ isKept g = true := by
  constructor
  · intro h
    by_cases hbreak : ∃ x ∈ g, isBreak x = true
    · refine isKept_of_separators fun x hx => ?_
      rcases gap_cases (hgap x hx) with rfl | rfl | hseparator
      · have hcount := length_folded_le_countP hbreak
        rw [h] at hcount
        have hall := List.countP_eq_length.1 (le_antisymm List.countP_le_length hcount)
        exact absurd (hall ' ' hx) (by decide)
      · exact absurd (h.symm ▸ hx) (not_mem_folded hx)
      · exact hseparator
    · refine isKept_of_spaces fun x hx => ?_
      have hunbroken : isBreak x = false := Bool.eq_false_iff.2 fun hx' => hbreak ⟨x, hx, hx'⟩
      rcases gap_cases (hgap x hx) with rfl | rfl | hseparator
      · rfl
      · exact absurd hunbroken (by decide)
      · exact absurd (isBreak_of_isSeparator hseparator) (Bool.eq_false_iff.1 hunbroken)
  · intro h
    rcases spaces_or_separators hgap h with hspaces | hseparators
    · refine folded_of_unbroken fun x hx => ?_
      rw [hspaces x hx]
      decide
    · exact folded_of_separators hseparators

theorem isKept_append {g t : List Char} (hgap : ∀ x ∈ g, isGap x = true)
    (ht : t.head?.any isGap = false) :
    isKept (g ++ t) =
      (isKept g && !(g.getLast?.any isSeparator && isIndicator t) && isKept t) := by
  have hhead : t.head?.any isSeparator = false ∧ (t.head? == some ' ') = false := by
    cases t with
    | nil => exact ⟨rfl, rfl⟩
    | cons x t =>
        have hx : x ≠ ' ' ∧ x ≠ '\u0085' ∧ x ≠ '\u2028' ∧ x ≠ '\u2029' := by
          simpa [isGap, and_assoc] using ht
        simp [isSeparator, hx]
  induction g with
  | nil => simp [isKept]
  | cons x g ih =>
      have hrest := ih fun y hy => hgap y (List.mem_cons_of_mem x hy)
      cases g with
      | nil =>
          rw [List.singleton_append, List.getLast?_singleton, Option.any_some]
          rcases gap_cases (hgap x List.mem_cons_self) with rfl | rfl | hx
          · have hspace : isSeparator ' ' = false := by decide
            rw [isKept_space, isKept_space, hhead.1, hspace]
            simp [isKept]
          · simp
          · rw [isKept_separator hx, isKept_separator hx, hhead.2, hx]
            simp [isKept, isIndicator]
      | cons y g =>
          -- Inside white space no indicator begins, so that `t` does not matter here.
          have hy := hgap y (by simp)
          have hindicator : isIndicator (y :: (g ++ t)) = false := isIndicator_of_gap hy
          have hindicator' : isIndicator (y :: g) = false := isIndicator_of_gap hy
          rw [List.cons_append] at hrest
          rw [List.cons_append, List.cons_append, List.getLast?_cons_cons]
          rcases gap_cases (hgap x List.mem_cons_self) with rfl | rfl | hx
          · rw [isKept_space, isKept_space, hrest]
            simp [Bool.and_assoc]
          · simp
          · rw [isKept_separator hx, isKept_separator hx, hrest, hindicator, hindicator']
            simp [Bool.and_assoc]

theorem length_held_le {g s content : List Char} (h : held? g s = some content) :
    content.length ≤ (g ++ s).length := by
  induction s generalizing g content with
  | nil =>
      rw [held?, Option.some.injEq] at h
      rw [List.append_nil, ← h]
      exact length_folded_le g
  | cons x s ih =>
      rw [held?] at h
      split at h
      · simpa using ih h
      · split at h
        · exact absurd h (by simp)
        · obtain ⟨tail, htail, rfl⟩ := Option.map_eq_some_iff.1 h
          have hlength := ih htail
          have hfolded := length_folded_le g
          simp only [List.nil_append, List.length_append, List.length_cons] at hlength ⊢
          omega

theorem map_held_eq_iff {g s : List Char} {x : Char} :
    ((held? [] s).map fun content => folded g ++ x :: content) = some (g ++ x :: s) ↔
      folded g = g ∧ held? [] s = some s := by
  constructor
  · intro h
    obtain ⟨content, hcontent, heq⟩ := Option.map_eq_some_iff.1 h
    have hlength := length_held_le hcontent
    have hfolded := length_folded_le g
    have htotal := congrArg List.length heq
    simp only [List.length_append, List.length_cons, List.nil_append] at htotal hlength
    obtain ⟨hg, htail⟩ := List.append_inj heq (by omega)
    rw [(List.cons.inj htail).2] at hcontent
    exact ⟨hg, hcontent⟩
  · rintro ⟨hg, hs⟩
    rw [hg, hs]
    rfl

theorem endsInBreak_of_isKept {g : List Char} (hgap : ∀ x ∈ g, isGap x = true)
    (h : isKept g = true) : endsInBreak g = g.getLast?.any isSeparator := by
  rw [endsInBreak]
  cases hlast : g.getLast? with
  | none => rfl
  | some x =>
      have hmem := List.mem_of_getLast? hlast
      rw [Option.any_some, Option.any_some]
      rcases spaces_or_separators hgap h with hspaces | hseparators
      · rw [hspaces x hmem]
        decide
      · rw [hseparators x hmem, isBreak_of_isSeparator (hseparators x hmem)]

theorem held?_eq_append_iff {g : List Char} (hgap : ∀ x ∈ g, isGap x = true) (s : List Char) :
    held? g s = some (g ++ s) ↔ isKept (g ++ s) = true := by
  -- `g` is the white space that has been read and not yet folded.
  induction s generalizing g with
  | nil => rw [held?, List.append_nil, Option.some.injEq, folded_eq_iff hgap]
  | cons x s ih =>
      cases hx : isGap x with
      | true =>
          have hmore : ∀ y ∈ g ++ [x], isGap y = true := by
            intro y hy
            rcases List.mem_append.1 hy with hy | hy
            · exact hgap y hy
            · rwa [List.mem_singleton.1 hy]
          have hstep := ih hmore
          rw [List.append_assoc] at hstep
          rw [held?, if_pos hx]
          exact hstep
      | false =>
          have hempty := ih (g := []) (by simp)
          rw [isKept_append hgap (by simpa using hx), isKept_of_not_isGap hx, held?,
            if_neg (Bool.eq_false_iff.1 hx)]
          cases hkept : isKept g with
          | true =>
              rw [endsInBreak_of_isKept hgap hkept]
              split
              · next hended => simp [hended]
              · next hended =>
                  rw [map_held_eq_iff, folded_eq_iff hgap]
                  rw [List.nil_append] at hempty
                  simp [hended, hkept, hempty]
          | false =>
              split
              · simp
              · rw [map_held_eq_iff, folded_eq_iff hgap]
                simp [hkept]

theorem held?_eq_iff (s : List Char) : held? [] s = some s ↔ isKept s = true :=
  held?_eq_append_iff (g := []) (by simp) s

theorem content?_eq_iff (t : String) : content? t = some t ↔ isKept t.toList = true := by
  rw [← held?_eq_iff, content?]
  constructor
  · intro h
    obtain ⟨content, hcontent, heq⟩ := Option.map_eq_some_iff.1 h
    rw [hcontent, ← heq, String.toList_ofList]
  · intro h
    rw [h, Option.map_some, String.ofList_toList]

theorem isKept_of_unbroken {w : List Char} (h : ∀ x ∈ w, isGap x = true → x = ' ') :
    isKept w = true := by
  induction w with
  | nil => rfl
  | cons x w ih =>
      have hrest := ih fun y hy => h y (List.mem_cons_of_mem x hy)
      cases hx : isGap x with
      | true =>
          rw [h x List.mem_cons_self hx, isKept_space, hrest, Bool.and_true]
          cases w with
          | nil => rfl
          | cons y w =>
              have hy : isSeparator y = false := by
                rw [Bool.eq_false_iff]
                intro hseparator
                have hgap : isGap y = true := isGap_iff.2 (.inr (.inr (isSeparator_iff.1 hseparator)))
                rw [h y (by simp) hgap] at hseparator
                exact absurd hseparator (by decide)
              simp [hy]
      | false => rw [isKept_of_not_isGap hx, hrest]

theorem ne_nil_of_held? {g s content : List Char} (h : held? g s = some content)
    (hne : g ++ s ≠ []) : content ≠ [] := by
  induction s generalizing g with
  | nil =>
      rw [held?, Option.some.injEq] at h
      rw [← h]
      exact folded_ne_nil (by simpa using hne)
  | cons x s ih =>
      rw [held?] at h
      split at h
      · exact ih h (by simp)
      · split at h
        · exact absurd h (by simp)
        · obtain ⟨tail, -, rfl⟩ := Option.map_eq_some_iff.1 h
          simp

theorem content_eq_empty_iff (t : String) : content t = "" ↔ t = "" := by
  constructor
  · intro h
    by_contra hne
    have hlist : t.toList ≠ [] := by
      intro hnil
      exact hne (by rw [← String.ofList_toList (s := t), hnil])
    rw [content, content?] at h
    cases hheld : held? [] t.toList with
    | none => exact hne (by simpa [hheld] using h)
    | some cs =>
        rw [hheld] at h
        have hcs : (String.ofList cs).toList = "".toList := congrArg String.toList h
        rw [String.toList_ofList] at hcs
        exact ne_nil_of_held? hheld hlist hcs
  · rintro rfl
    rfl

end ResourceGraph.Yaml.Scalar
