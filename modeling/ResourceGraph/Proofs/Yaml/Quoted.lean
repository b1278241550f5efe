import Mathlib.Data.List.TakeWhile
import ResourceGraph.Proofs.Json.Texts
import ResourceGraph.Proofs.Yaml.Escape

/-!
What YAML makes of a text that JSON has quoted. JSON leaves spaces and the line breaks NEL, LS and
PS as they are; between the other characters they are folded, and a document indicator after such a
break ends the text.
-/

namespace ResourceGraph.Yaml.Scalar

open Json.Writer

def isGap (x : Char) : Bool := x == ' ' || x == '\u0085' || x == '\u2028' || x == '\u2029'

def Gap.extend : Gap → Char → Gap
  | .blanks text, x => if isBreak x then .breaks (Cursor.broken x) [] else .blanks (text ++ [x])
  | .breaks first more, x =>
      if isBreak x then .breaks first (more ++ Cursor.broken x) else .breaks first more

def folded (g : List Char) : List Char := (g.foldl Gap.extend (.blanks [])).fold

def isIndicator (text : List Char) : Bool :=
  (text.take 3 == ['-', '-', '-'] || text.take 3 == ['.', '.', '.']) && text[3]?.any isGap

def endsInBreak (g : List Char) : Bool := g.getLast?.any isBreak

/-- The content of a quoted text, after white space that is not yet folded. -/
def held? : List Char → List Char → Option (List Char)
  | g, [] => some (folded g)
  | g, x :: rest =>
      if isGap x then held? (g ++ [x]) rest
      else if endsInBreak g && isIndicator (x :: rest) then none
      else (held? [] rest).map fun content => folded g ++ x :: content

@[simp] theorem folded_nil : folded [] = [] := rfl

theorem isGap_iff {x : Char} :
    isGap x = true ↔ x = ' ' ∨ x = '\u0085' ∨ x = '\u2028' ∨ x = '\u2029' := by
  simp [isGap, or_assoc]

theorem blank_or_break_of_isGap {x : Char} (h : isGap x = true) :
    (isBlank x || isBreak x) = true := by
  rcases isGap_iff.1 h with rfl | rfl | rfl | rfl <;> decide

theorem escape_of_isGap {x : Char} (h : isGap x = true) : escape x = [x] := by
  rcases isGap_iff.1 h with rfl | rfl | rfl | rfl <;> decide

/-- A character that is written as it is and is no white space of JSON. -/
structure Raw (x : Char) : Prop where
  blank : isBlank x = false
  unbroken : isBreak x = false
  ne_quote : x ≠ '"'
  ne_slash : x ≠ '\\'

theorem raw_of_escape {x : Char} (hescape : escape x = [x]) (hgap : isGap x = false) : Raw x := by
  have hne : ∀ y, escape y ≠ [y] → x ≠ y := fun y hy hxy => hy (hxy ▸ hescape)
  have hspace : x ≠ ' ' ∧ x ≠ '\u0085' ∧ x ≠ '\u2028' ∧ x ≠ '\u2029' := by
    simpa [isGap, and_assoc] using hgap
  obtain ⟨hspace, hnext, hline, hparagraph⟩ := hspace
  have htab := hne '\t' (by decide)
  have hfeed := hne '\n' (by decide)
  have hreturn := hne '\r' (by decide)
  refine ⟨?_, ?_, hne '"' (by decide), hne '\\' (by decide)⟩
  · simp [isBlank, hspace, htab]
  · simp [isBreak, hfeed, hreturn, hnext, hline, hparagraph]

theorem escape_of_not_isGap {x : Char} (h : isGap x = false) :
    (escape x = [x] ∧ Raw x) ∨ ∃ w, escape x = '\\' :: w ∧ Names w x := by
  rcases escape_cases x with ⟨hescape, -⟩ | ⟨hnamed, -⟩
  · exact .inl ⟨hescape, raw_of_escape hescape h⟩
  · exact .inr hnamed

theorem written_of_gap {g : List Char} (h : ∀ x ∈ g, isGap x = true) : g.flatMap escape = g := by
  induction g with
  | nil => rfl
  | cons x g ih =>
      rw [List.flatMap_cons, escape_of_isGap (h x List.mem_cons_self),
        ih fun y hy => h y (List.mem_cons_of_mem x hy)]
      rfl

theorem length_le_written (s : List Char) : s.length ≤ (s.flatMap escape).length := by
  induction s with
  | nil => rfl
  | cons x s ih =>
      have hone : 0 < (escape x).length := by
        rcases escape_cases x with ⟨h, -⟩ | ⟨⟨w, h, -⟩, -⟩ <;> simp [h]
      rw [List.flatMap_cons, List.length_cons, List.length_append]
      omega

theorem escape_unbroken {x : Char} (h : isGap x = false) :
    ∀ y ∈ escape x, isBreak y = false := by
  intro y hy
  rcases escape_of_not_isGap h with ⟨hescape, hraw⟩ | ⟨w, hescape, hnames⟩
  · rw [hescape, List.mem_singleton] at hy
    exact hy ▸ hraw.unbroken
  · rw [hescape] at hy
    rcases List.mem_cons.1 hy with rfl | hy
    · exact isBreak_of_printable (by decide)
    · exact hnames.isBreak_eq_false hy

section Gaps

variable {g rest : List Char} {c : Cursor}

theorem gap_of_text {fuel : Nat} {G : Gap} (hgap : ∀ x ∈ g, isGap x = true)
    (hrest : rest.head?.any (fun x => isBlank x || isBreak x) = false)
    (htext : c.text = g ++ rest) (hfuel : g.length < fuel) :
    gap 0 fuel G c = some (g.foldl Gap.extend G, c.past g) := by
  induction g generalizing fuel G c with
  | nil =>
      obtain ⟨fuel, rfl⟩ := Nat.exists_eq_add_of_lt hfuel
      rw [List.nil_append] at htext
      cases rest with
      | nil => simp [gap, Cursor.peek?, htext]
      | cons y rest =>
          simp only [List.head?_cons, Option.any_some, Bool.or_eq_false_iff] at hrest
          simp [gap, Cursor.peek?, htext, hrest.1, hrest.2]
  | cons x g ih =>
      obtain ⟨fuel, rfl⟩ : ∃ n, fuel = n + 1 := ⟨fuel - 1, by omega⟩
      have hx := hgap x List.mem_cons_self
      have hrest' : (c.past [x]).text = g ++ rest := Cursor.text_past (w := [x]) htext
      have hlength : g.length < fuel := by simpa using hfuel
      have step (G : Gap) := ih (G := G) (fun y hy => hgap y (List.mem_cons_of_mem x hy)) hrest'
        hlength
      have hpast : (c.past [x]).past g = c.past (x :: g) := Cursor.past_past c [x] g
      rw [hpast] at step
      have hpeek : c.peek? = some x := by rw [Cursor.peek?, htext]; rfl
      rw [gap, hpeek]
      by_cases hbreak : isBreak x = true
      · have hblank : isBlank x = false := by
          rcases isGap_iff.1 hx with rfl | rfl | rfl | rfl
          · exact absurd hbreak (by decide)
          · decide
          · decide
          · decide
        have hreturn : x ≠ '\r' := by
          rintro rfl
          exact absurd hx (by decide)
        simp only [hblank, hbreak, Bool.false_eq_true, if_false, if_true,
          Cursor.lineBreak_of_break htext hbreak hreturn]
        cases G <;> simp [step, Gap.extend, hbreak]
      · have hbreak : isBreak x = false := Bool.eq_false_iff.2 hbreak
        have hspace : x = ' ' := by
          rcases isGap_iff.1 hx with rfl | rfl | rfl | rfl
          · rfl
          · exact absurd hbreak (by decide)
          · exact absurd hbreak (by decide)
          · exact absurd hbreak (by decide)
        subst hspace
        have hblank : isBlank ' ' = true := by decide
        simp only [hblank, if_true, Cursor.advance_one c hbreak]
        cases G <;> simp [step, Gap.extend, hbreak]

end Gaps

section Runs

variable {run s rest : List Char} {c : Cursor}

theorem quotedRun_append (hrun : ∀ x ∈ run, isGap x = false)
    (htext : c.text = run.flatMap escape ++ rest) (fuel : Nat) :
    quotedRun false (run.length + fuel) c =
      (quotedRun false fuel (c.past (run.flatMap escape))).map fun (r, e) => (run ++ r, e) := by
  induction run generalizing c with
  | nil =>
      rw [List.flatMap_nil, Cursor.past_nil, List.length_nil, Nat.zero_add]
      simp
  | cons x run ih =>
      have hx := hrun x List.mem_cons_self
      rw [List.flatMap_cons, List.append_assoc] at htext
      have hrest : (c.past (escape x)).text = run.flatMap escape ++ rest := Cursor.text_past htext
      have hstep := ih (fun y hy => hrun y (List.mem_cons_of_mem x hy)) hrest
      rw [Cursor.past_past, ← List.flatMap_cons] at hstep
      have hadvance : c.advance (escape x).length = c.past (escape x) :=
        Cursor.advance_eq_past c (escape_unbroken hx)
      rw [List.length_cons, Nat.add_right_comm, quotedRun, htext]
      -- A character is written as it is, or as a backslash and what names it.
      rcases escape_of_not_isGap hx with ⟨hescape, hraw⟩ | ⟨w, hescape, hnames⟩
      · rw [hescape] at hadvance ⊢
        rw [hescape] at hstep
        have hblank : (isBlank x || isBreak x) = false := by simp [hraw.blank, hraw.unbroken]
        have hquote : (x == '"') = false := beq_eq_false_iff_ne.2 hraw.ne_quote
        have hslash : (x == '\\') = false := beq_eq_false_iff_ne.2 hraw.ne_slash
        have hone : c.advance 1 = c.past [x] := hadvance
        simp only [List.singleton_append, hblank, hquote, hslash, Bool.false_eq_true, if_false,
          hone, hstep, Option.map_map]
        rfl
      · rw [hescape] at hadvance ⊢
        rw [hescape] at hstep
        have hsome := hnames.escape? (run.flatMap escape ++ rest)
        have hhead : (w ++ (run.flatMap escape ++ rest)).head?.any isBreak = false := by
          obtain ⟨y, v, rfl⟩ := List.exists_cons_of_ne_nil hnames.ne_nil
          simpa using hnames.isBreak_eq_false (x := y) List.mem_cons_self
        have hquoted : (isBlank '\\' || isBreak '\\') = false := by decide
        have hlength : c.advance (w.length + 1) = c.past ('\\' :: w) := hadvance
        have hne : ('\\' == '"') = false := by decide
        simp only [List.cons_append, hquoted, hne, hhead, hsome, Bool.false_eq_true, if_false,
          beq_self_eq_true, if_true, Option.bind_some, hlength, hstep, Option.map_map]
        rfl

theorem quotedRun_of_gap {x : Char} (hrun : ∀ y ∈ run, isGap y = false)
    (htext : c.text = run.flatMap escape ++ x :: rest) (hx : isGap x = true) {fuel : Nat}
    (hfuel : run.length < fuel) :
    quotedRun false fuel c = some (run, .space, c.past (run.flatMap escape)) := by
  obtain ⟨n, rfl⟩ := Nat.exists_eq_add_of_lt hfuel
  rw [Nat.add_assoc, quotedRun_append hrun htext, quotedRun, Cursor.text_past htext]
  simp [blank_or_break_of_isGap hx]

theorem quotedRun_of_quote (hrun : ∀ y ∈ run, isGap y = false)
    (htext : c.text = run.flatMap escape ++ '"' :: rest) {fuel : Nat} (hfuel : run.length < fuel) :
    quotedRun false fuel c = some (run, .quote, c.past (run.flatMap escape ++ ['"'])) := by
  obtain ⟨n, rfl⟩ := Nat.exists_eq_add_of_lt hfuel
  have hblank : (isBlank '"' || isBreak '"') = false := by decide
  have hone := Cursor.advance_one (x := '"') (c.past (run.flatMap escape)) (by decide)
  rw [Cursor.past_past] at hone
  rw [Nat.add_assoc, quotedRun_append hrun htext, quotedRun, Cursor.text_past htext]
  simp [hblank, hone]

end Runs

section Indicators

variable {s rest t : List Char}

theorem written_eq_cons_iff {x : Char} (hescape : escape x = [x]) (hraw : Raw x) :
    s.flatMap escape ++ '"' :: rest = x :: t ↔
      ∃ s', s = x :: s' ∧ t = s'.flatMap escape ++ '"' :: rest := by
  constructor
  · intro h
    cases s with
    | nil => exact absurd (List.cons.inj h).1.symm hraw.ne_quote
    | cons y s' =>
        rw [List.flatMap_cons, List.append_assoc] at h
        rcases escape_cases y with ⟨hy, -⟩ | ⟨⟨w, hy, -⟩, -⟩
        · rw [hy] at h
          obtain ⟨rfl, rfl⟩ := List.cons.inj h
          exact ⟨s', rfl, rfl⟩
        · rw [hy] at h
          exact absurd (List.cons.inj h).1.symm hraw.ne_slash
  · rintro ⟨s', rfl, rfl⟩
    rw [List.flatMap_cons, hescape]
    rfl

theorem take_three_eq_iff {x : Char} {l : List Char} :
    (l.take 3 == [x, x, x]) = true ↔ ∃ t, l = x :: x :: x :: t := by
  rw [beq_iff_eq]
  constructor
  · intro h
    refine ⟨l.drop 3, ?_⟩
    rw [← List.take_append_drop 3 l, h]
    rfl
  · rintro ⟨t, rfl⟩
    rfl

theorem written_three_iff {x : Char} (hescape : escape x = [x]) (hraw : Raw x) :
    (∃ t, s.flatMap escape ++ '"' :: rest = x :: x :: x :: t) ↔ ∃ t, s = x :: x :: x :: t := by
  constructor
  · rintro ⟨t, h⟩
    obtain ⟨u, rfl, hu⟩ := (written_eq_cons_iff hescape hraw).1 h
    obtain ⟨v, rfl, hv⟩ := (written_eq_cons_iff hescape hraw).1 hu.symm
    obtain ⟨w, rfl, -⟩ := (written_eq_cons_iff hescape hraw).1 hv.symm
    exact ⟨w, rfl⟩
  · rintro ⟨t, rfl⟩
    exact ⟨t.flatMap escape ++ '"' :: rest, by simp [hescape]⟩

theorem head?_written :
    (s.flatMap escape ++ '"' :: rest).head?.any (fun x => isBlank x || isBreak x) =
      s.head?.any isGap := by
  cases s with
  | nil =>
      change (isBlank '"' || isBreak '"') = false
      decide
  | cons x s =>
      cases hx : isGap x with
      | true => simp [escape_of_isGap hx, blank_or_break_of_isGap hx, hx]
      | false =>
          rcases escape_of_not_isGap hx with ⟨hescape, hraw⟩ | ⟨w, hescape, -⟩
          · simp [hescape, hraw.blank, hraw.unbroken, hx]
          · have hslash : (isBlank '\\' || isBreak '\\') = false := by decide
            simp [hescape, hx, hslash]

theorem blankOrEnd_of_three {x : Char} (hescape : escape x = [x]) {c : Cursor}
    (htext : c.text = (x :: x :: x :: t).flatMap escape ++ '"' :: rest) :
    c.blankOrEndAt 3 = t.head?.any isGap := by
  have h : c.text = x :: x :: x :: (t.flatMap escape ++ '"' :: rest) := by
    rw [htext]
    simp [hescape]
  have hnext : c.text[3]? = (t.flatMap escape ++ '"' :: rest).head? := by
    rw [h, List.head?_eq_getElem?]
    rfl
  have hhead : (t.flatMap escape ++ '"' :: rest).head?.any (fun x => isBlank x || isBreak x) =
      t.head?.any isGap := head?_written
  rw [← hhead, Cursor.blankOrEndAt, hnext]
  cases ht : t.flatMap escape ++ '"' :: rest with
  | nil => exact absurd ht (by simp)
  | cons => rfl

theorem atIndicator_of_text {x : Char} (hescape : escape x = [x]) (hraw : Raw x) {c : Cursor}
    (htext : c.text = s.flatMap escape ++ '"' :: rest) :
    c.atIndicator x = (c.column == 0 && (s.take 3 == [x, x, x] && s[3]?.any isGap)) := by
  have htake : (c.text.take 3 == [x, x, x]) = (s.take 3 == [x, x, x]) := by
    rw [Bool.eq_iff_iff, take_three_eq_iff, take_three_eq_iff, htext]
    exact written_three_iff hescape hraw
  rw [Cursor.atIndicator, htake, Bool.and_assoc]
  cases hthree : s.take 3 == [x, x, x] with
  | false => rfl
  | true =>
      obtain ⟨t, rfl⟩ := take_three_eq_iff.1 hthree
      rw [blankOrEnd_of_three hescape htext, List.head?_eq_getElem?]
      rfl

theorem atDocumentIndicator_of_text {c : Cursor}
    (htext : c.text = s.flatMap escape ++ '"' :: rest) :
    c.atDocumentIndicator = (c.column == 0 && isIndicator s) := by
  have hdash := atIndicator_of_text (x := '-') (by decide)
    (raw_of_escape (by decide) (by decide)) htext
  have hdot := atIndicator_of_text (x := '.') (by decide)
    (raw_of_escape (by decide) (by decide)) htext
  rw [Cursor.atDocumentIndicator, hdash, hdot, ← Bool.and_or_distrib_left,
    ← Bool.and_or_distrib_right, isIndicator]

end Indicators

theorem held?_of_run {run : List Char} (hrun : ∀ x ∈ run, isGap x = false) (s : List Char) :
    held? [] (run ++ s) = (held? [] s).map (run ++ ·) := by
  induction run with
  | nil => simp
  | cons x run ih =>
      have hx := hrun x List.mem_cons_self
      have hrest := ih fun y hy => hrun y (List.mem_cons_of_mem x hy)
      rw [List.cons_append, held?, hx, hrest]
      simp [endsInBreak]
      rfl

theorem held?_of_gap {gap : List Char} (hgap : ∀ x ∈ gap, isGap x = true) (g s : List Char) :
    held? g (gap ++ s) = held? (g ++ gap) s := by
  induction gap generalizing g with
  | nil => simp
  | cons x gap ih =>
      have hx := hgap x List.mem_cons_self
      rw [List.cons_append, held?, if_pos hx, ih fun y hy => hgap y (List.mem_cons_of_mem x hy),
        List.append_assoc]
      rfl

theorem held?_folded {s : List Char} (hs : s.head?.any isGap = false) (g : List Char) :
    held? g s = if endsInBreak g && isIndicator s then none
      else (held? [] s).map (folded g ++ ·) := by
  cases s with
  | nil => simp [held?, isIndicator]
  | cons x s =>
      have hx : isGap x = false := hs
      rw [held?, held?, hx]
      simp [endsInBreak]
      rfl

theorem run_cases (s : List Char) :
    ∃ run, (∀ x ∈ run, isGap x = false) ∧ (s = run ∨ ∃ gap s', s = run ++ (gap ++ s') ∧
      gap ≠ [] ∧ (∀ x ∈ gap, isGap x = true) ∧ s'.head?.any isGap = false) := by
  have hsplit := List.takeWhile_append_dropWhile (p := fun x => !isGap x) (l := s)
  refine ⟨s.takeWhile fun x => !isGap x, ?_, ?_⟩
  · intro x hx
    simpa using List.mem_takeWhile_imp hx
  · cases hrest : s.dropWhile fun x => !isGap x with
    | nil =>
        rw [hrest, List.append_nil] at hsplit
        exact .inl hsplit.symm
    | cons x s₁ =>
        have hx : isGap x = true := by
          have := List.head?_dropWhile_not (fun x => !isGap x) s
          simpa [hrest] using this
        rw [hrest] at hsplit
        refine .inr ⟨(x :: s₁).takeWhile isGap, (x :: s₁).dropWhile isGap, ?_, ?_, ?_, ?_⟩
        · rw [List.takeWhile_append_dropWhile]
          exact hsplit.symm
        · simp [hx]
        · exact fun y hy => List.mem_takeWhile_imp hy
        · have := List.head?_dropWhile_not isGap (x :: s₁)
          cases hhead : ((x :: s₁).dropWhile isGap).head? with
          | none => rfl
          | some y => simpa [hhead] using this

section Content

variable {s rest : List Char} {c : Cursor}

theorem quotedFrom_of_indicator {fuel : Nat} {done : List Char} (hcolumn : c.column = 0)
    (htext : c.text = s.flatMap escape ++ '"' :: rest) (h : isIndicator s = true) :
    quotedFrom false fuel done c = none := by
  cases fuel with
  | zero => rfl
  | succ fuel =>
      have hindicator : c.atDocumentIndicator = true := by
        rw [atDocumentIndicator_of_text htext, hcolumn, h]
        rfl
      rw [quotedFrom, if_pos (by rw [hindicator, Bool.true_or])]
      rfl

theorem quotedFrom_of_text {fuel : Nat} {done : List Char}
    (hline : c.column = 0 → isIndicator s = false)
    (htext : c.text = s.flatMap escape ++ '"' :: rest) (hfuel : s.length < fuel) :
    quotedFrom false fuel done c = (held? [] s).map fun content =>
      (done ++ content, c.past (s.flatMap escape ++ ['"'])) := by
  induction fuel generalizing s c done with
  | zero => exact absurd hfuel (Nat.not_lt_zero _)
  | succ fuel ih =>
      have hopen : (c.atDocumentIndicator || c.text.isEmpty) = false := by
        have hindicator : c.atDocumentIndicator = false := by
          rw [atDocumentIndicator_of_text htext, Bool.and_eq_false_imp]
          exact fun h => hline (beq_iff_eq.1 h)
        simp [hindicator, htext]
      have hbound := Cursor.length_lt_bound htext
      rw [quotedFrom, if_neg (Bool.eq_false_iff.1 hopen)]
      obtain ⟨run, hrun, rfl | ⟨gap, s', rfl, hne, hgap, hs'⟩⟩ := run_cases s
      -- One run up to the closing quote.
      · have hlength := length_le_written s
        rw [quotedRun_of_quote hrun htext (by omega)]
        have hcontent : held? [] s = some s := by
          simpa [held?] using held?_of_run hrun []
        simp [hcontent]
      -- A run and the white space behind it, after which the reader starts anew.
      · have hwritten : (run ++ (gap ++ s')).flatMap escape =
            run.flatMap escape ++ (gap ++ s'.flatMap escape) := by
          rw [List.flatMap_append, List.flatMap_append, written_of_gap hgap]
        have hlength := length_le_written run
        rw [hwritten] at htext hbound
        simp only [List.length_append] at hbound hfuel
        simp only [List.append_assoc] at htext
        obtain ⟨y, gap', rfl⟩ := List.exists_cons_of_ne_nil hne
        have hrunEnd := quotedRun_of_gap hrun htext (hgap y List.mem_cons_self)
          (show _ < c.bound + 1 by omega)
        have htext' := Cursor.text_past htext
        have hend : (s'.flatMap escape ++ '"' :: rest).head?.any
            (fun x => isBlank x || isBreak x) = false := by
          rw [head?_written, hs']
        have hgapEnd := gap_of_text (G := .blanks []) hgap hend htext'
          (show _ < c.bound + 1 by omega)
        have htext'' := Cursor.text_past htext'
        rw [Cursor.past_past] at hgapEnd htext''
        have hcolumn := Cursor.columnAfter_eq_zero_iff (w := run.flatMap escape ++ y :: gap')
          c.column (by simp)
        rw [List.getLast?_append_of_ne_nil _ hne] at hcolumn
        rw [hrunEnd, held?_of_run hrun, held?_of_gap hgap, List.nil_append, held?_folded hs',
          hwritten]
        simp only [Option.bind_eq_bind, Option.bind_some, Cursor.bound_past, hgapEnd]
        -- An indicator at the start of a line would end the document inside the quotes.
        by_cases hended : endsInBreak (y :: gap') = true ∧ isIndicator s' = true
        · rw [quotedFrom_of_indicator (hcolumn.2 hended.1) htext'' hended.2, hended.1, hended.2]
          rfl
        · have hline' : (c.past (run.flatMap escape ++ y :: gap')).column = 0 →
              isIndicator s' = false := by
            intro h
            exact Bool.eq_false_iff.2 fun hindicator => hended ⟨hcolumn.1 h, hindicator⟩
          rw [ih hline' htext'' (by simp only [List.length_cons] at hfuel; omega),
            Cursor.past_past, if_neg (by simpa using hended)]
          simp only [Option.map_map, Function.comp_def, List.append_assoc]
          rfl
/-- A quoted text is read as its content, and the cursor stands after it. -/
theorem quoted_of_text (htext : c.text = '"' :: s.flatMap escape ++ '"' :: rest) :
    quoted false c = (held? [] s).map fun content =>
      (content, c.past ('"' :: s.flatMap escape ++ ['"'])) := by
  have hlength := length_le_written s
  have hbound := Cursor.length_lt_bound htext
  rw [List.length_cons] at hbound
  have htext' : (c.past ['"']).text = s.flatMap escape ++ '"' :: rest :=
    Cursor.text_past (w := ['"']) htext
  have hcolumn : (c.past ['"']).column ≠ 0 := by
    rw [Cursor.column_past]
    intro h
    have := (Cursor.columnAfter_eq_zero_iff c.column (List.cons_ne_nil '"' [])).1 h
    exact absurd this (by decide)
  rw [quoted, Cursor.advance_one (x := '"') c (by decide),
    quotedFrom_of_text (fun h => absurd h hcolumn) htext' (by omega)]
  simp only [Cursor.past_past, List.nil_append]
  rfl

def content? (text : String) : Option String := (held? [] text.toList).map String.ofList

def content (text : String) : String := (content? text).getD text

theorem quoted_of_quoted {text : String} (htext : c.text = (Json.Writer.quoted text).toList ++ rest) :
    (quoted false c).map (fun r => (String.ofList r.1, r.2)) =
      (content? text).map fun content => (content, c.past (Json.Writer.quoted text).toList) := by
  rw [toList_quoted] at htext ⊢
  simp only [List.cons_append, List.append_assoc] at htext
  rw [quoted_of_text htext, content?, Option.map_map, Option.map_map]
  rfl

end Content

end ResourceGraph.Yaml.Scalar
