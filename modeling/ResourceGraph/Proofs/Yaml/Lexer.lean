import ResourceGraph.Proofs.Yaml.Quoted
import ResourceGraph.Yaml.Token.Lexer

/-!
Runs of the lexer outside all blocks. A run is put together from the parts of the text that it
reads; the tokens of the parts follow one another.
-/

namespace ResourceGraph.Yaml.Lexer.State

variable {s s' s'' : State} {x : Char} {v w rest : List Char}

/-- No block is open and no key is awaited. -/
structure Calm (s : State) : Prop where
  indent : s.indent = -1
  outer : s.outer = []
  candidate : s.candidate.any (·.required) = false
  enclosing : ∀ k ∈ s.enclosing, k.any (·.required) = false

def keep (c : Cursor) (k : Option Candidate) : Option Candidate :=
  if k.any (isStale c) then none else k

def settled (s : State) : State :=
  { s with candidate := keep s.cursor s.candidate, enclosing := s.enclosing.map (keep s.cursor) }

def noted (s : State) : State :=
  { s with candidate :=
      if s.keyAllowed then
        some ⟨false, s.tokens.size, s.cursor.index, s.cursor.line, s.cursor.column⟩
      else s.candidate }

theorem keep_optional (c : Cursor) {k : Option Candidate} (h : k.any (·.required) = false) :
    (keep c k).any (·.required) = false := by
  rw [keep]
  split
  · rfl
  · exact h

theorem Calm.settled (h : s.Calm) : s.settled.Calm where
  indent := h.indent
  outer := h.outer
  candidate := keep_optional s.cursor h.candidate
  enclosing k hk := by
    obtain ⟨k', hk', rfl⟩ := List.mem_map.1 hk
    exact keep_optional s.cursor (h.enclosing k' hk')

theorem Calm.noted (h : s.Calm) : s.noted.Calm where
  indent := h.indent
  outer := h.outer
  candidate := by
    rw [State.noted]
    dsimp only
    split
    · rfl
    · exact h.candidate
  enclosing := h.enclosing

theorem dropStale_of_calm (h : s.Calm) : s.dropStale = some s.settled := by
  have hall : ((s.candidate :: s.enclosing).any fun k =>
      k.any (isStale s.cursor) && k.any (·.required)) = false := by
    rw [List.any_eq_false]
    intro k hk
    have hoptional : k.any (·.required) = false := by
      rcases List.mem_cons.1 hk with rfl | hk
      · exact h.candidate
      · exact h.enclosing k hk
    simp [hoptional]
  rw [dropStale]
  simp only [hall]
  rfl

theorem dropCandidate_of_calm (h : s.Calm) :
    s.dropCandidate = some { s with candidate := none } := by
  rw [dropCandidate, h.candidate]
  rfl

theorem saveCandidate_of_calm (h : s.Calm) : s.saveCandidate = some s.noted := by
  rw [saveCandidate, dropCandidate_of_calm h]
  cases hkey : s.keyAllowed with
  | false =>
      rw [noted, if_neg (Bool.eq_false_iff.1 hkey)]
      rfl
  | true =>
      have hcolumn : (s.indent == (s.cursor.column : Int)) = false := by
        rw [h.indent, beq_eq_false_iff_ne]
        omega
      simp only [Bool.not_true, Bool.false_eq_true, if_false, Option.map_some, hcolumn,
        Bool.and_false, noted, hkey, if_true]

theorem unroll_of_calm (h : s.Calm) (column : Int) : s.unroll column = s := by
  rw [unroll]
  split
  · rfl
  · rw [h.outer, closeBlocks, ← h.outer]

/-- Characters at which a token starts. -/
structure Starts (x : Char) : Prop where
  blank : isBlank x = false
  unbroken : isBreak x = false
  ne_comment : x ≠ '#'
  ne_mark : x ≠ byteOrderMark

theorem Cursor.advance_zero (c : Cursor) : c.advance 0 = c := Cursor.past_nil c

theorem skipToToken_of_head (h : ∀ x ∈ s.cursor.text.head?, Starts x) (fuel : Nat) :
    skipToToken fuel s = s := by
  cases fuel with
  | zero => rfl
  | succ fuel =>
      have hnext : ∀ y, (∀ x, Starts x → x ≠ y) → s.cursor.nextIs y = false := by
        intro y hy
        rw [Cursor.nextIs, beq_eq_false_iff_ne]
        intro heq
        exact hy y (h y heq) rfl
      have hmark := hnext byteOrderMark fun x hx => hx.ne_mark
      have hcomment := hnext '#' fun x hx => hx.ne_comment
      have hbreak : s.cursor.satisfies isBreak = false := by
        rw [Cursor.satisfies]
        cases hhead : s.cursor.text.head? with
        | none => rfl
        | some x => exact (h x hhead).unbroken
      have hskip : s.cursor.skipWhile
          (fun x => x == ' ' || (x == '\t' && (s.inFlow || !s.keyAllowed))) = s.cursor := by
        rw [Cursor.skipWhile, Cursor.takeWhile]
        cases htext : s.cursor.text with
        | nil => exact Cursor.advance_zero s.cursor
        | cons x rest =>
            have hx := (h x (by rw [htext]; rfl)).blank
            rw [isBlank, Bool.or_eq_false_iff] at hx
            rw [List.takeWhile_cons_of_neg (by simp [hx.1, hx.2])]
            exact Cursor.advance_zero s.cursor
      rw [skipToToken]
      simp [hmark, hskip, hcomment, hbreak]

theorem next_of_head (hcalm : s.Calm) (h : ∀ x ∈ s.cursor.text.head?, Starts x) :
    s.next = s.settled.token := by
  rw [next, skipToToken_of_head h, dropStale_of_calm hcalm]
  exact congrArg token (unroll_of_calm hcalm.settled _)

def level (s : State) : Nat := s.enclosing.length

/-- Reading the characters `w` adds the tokens `ts`. -/
structure Reads (s : State) (w : List Char) (ts : List Token) (s' : State) : Prop where
  run : ∃ n ≤ w.length, ∀ fuel, run (n + fuel) s = run fuel s'
  cursor : s'.cursor = s.cursor.past w
  tokens : s'.tokens.toList = s.tokens.toList ++ ts
  calm : s'.Calm

/-- No run from here comes to an end of the text. -/
def Fails (s : State) : Prop := ∀ fuel, run fuel s = none

theorem Reads.text {ts : List Token} (h : Reads s w ts s') (htext : s.cursor.text = w ++ rest) :
    s'.cursor.text = rest := by
  rw [h.cursor]
  exact Cursor.text_past htext

theorem Reads.append {ts us : List Token} (h : Reads s v ts s') (h' : Reads s' w us s'') :
    Reads s (v ++ w) (ts ++ us) s'' where
  run := by
    obtain ⟨n, hn, hrun⟩ := h.run
    obtain ⟨m, hm, hrun'⟩ := h'.run
    refine ⟨n + m, ?_, fun fuel => ?_⟩
    · rw [List.length_append]
      omega
    · rw [Nat.add_assoc, hrun, hrun']
  cursor := by rw [h'.cursor, h.cursor, Cursor.past_past]
  tokens := by rw [h'.tokens, h.tokens, List.append_assoc]
  calm := h'.calm

theorem run_succ (fuel : Nat) (s : State) :
    run (fuel + 1) s = s.next.bind fun r => if r.2 then run fuel r.1 else some r.1 := rfl

theorem Reads.step {ts us : List Token} (h : Reads s v ts s') (hnext : s'.next = some (s'', true))
    (hne : w ≠ []) (hcursor : s''.cursor = s'.cursor.past w)
    (htokens : s''.tokens.toList = s.tokens.toList ++ us) (hcalm : s''.Calm) :
    Reads s (v ++ w) us s'' where
  run := by
    obtain ⟨n, hn, hrun⟩ := h.run
    refine ⟨n + 1, ?_, fun fuel => ?_⟩
    · have hpos := List.length_pos_of_ne_nil hne
      rw [List.length_append]
      omega
    · rw [Nat.add_assoc, hrun, Nat.add_comm, run_succ, hnext]
      rfl
  cursor := by rw [hcursor, h.cursor, Cursor.past_past]
  tokens := htokens
  calm := hcalm

theorem reads_nil (h : s.Calm) : Reads s [] [] s where
  run := ⟨0, Nat.le_refl 0, fun fuel => by rw [Nat.zero_add]⟩
  cursor := (Cursor.past_nil s.cursor).symm
  tokens := (List.append_nil _).symm
  calm := h

theorem reads_of_next {ts : List Token} (hcalm : s.Calm) (h : s.next = some (s', true))
    (hne : w ≠ []) (hcursor : s'.cursor = s.cursor.past w)
    (htokens : s'.tokens.toList = s.tokens.toList ++ ts) (hcalm' : s'.Calm) : Reads s w ts s' :=
  (reads_nil hcalm).step h hne hcursor htokens hcalm'

theorem fails_of_next (h : s.next = none) : Fails s := by
  intro fuel
  cases fuel with
  | zero => rfl
  | succ fuel =>
      rw [run_succ, h]
      rfl

theorem run_mono {m : Nat} (h : run m s = some s') (n : Nat) : run (m + n) s = some s' := by
  induction m generalizing s with
  | zero => exact absurd h (by simp [run])
  | succ m ih =>
      rw [Nat.add_right_comm, run_succ]
      rw [run_succ] at h
      obtain ⟨⟨next, more⟩, hnext, hrest⟩ := Option.bind_eq_some_iff.1 h
      rw [hnext, Option.bind_some]
      cases more with
      | false => exact hrest
      | true => exact ih hrest

theorem Fails.of_reads {ts : List Token} (h : Reads s w ts s') (h' : Fails s') : Fails s := by
  intro fuel
  obtain ⟨n, -, hrun⟩ := h.run
  cases hresult : run fuel s with
  | none => rfl
  | some r =>
      have hmore := run_mono hresult n
      rw [Nat.add_comm, hrun, h'] at hmore
      exact hmore.symm

/-- The characters `w` are read as the tokens `ts`, into a state with the property `Q`; if they are
not in order, the run fails. -/
def Yields (s : State) (w : List Char) (ok : Bool) (ts : List Token) (Q : State → Prop) : Prop :=
  match ok with
  | true => ∃ s', Reads s w ts s' ∧ Q s'
  | false => Fails s

theorem Yields.append {a b : Bool} {ts us : List Token} {Q R : State → Prop}
    (h : Yields s v a ts Q) (h' : ∀ s', Reads s v ts s' → Q s' → Yields s' w b us R) :
    Yields s (v ++ w) (a && b) (ts ++ us) R := by
  cases a with
  | false => exact h
  | true =>
      obtain ⟨s', hreads, hQ⟩ := h
      have hrest := h' s' hreads hQ
      cases b with
      | false => exact Fails.of_reads hreads hrest
      | true =>
          obtain ⟨s'', hreads', hR⟩ := hrest
          exact ⟨s'', hreads.append hreads', hR⟩

theorem Yields.weaken {ok : Bool} {ts : List Token} {Q R : State → Prop} (h : Yields s w ok ts Q)
    (himp : ∀ s', Q s' → R s') : Yields s w ok ts R := by
  cases ok with
  | false => exact h
  | true =>
      obtain ⟨s', hreads, hQ⟩ := h
      exact ⟨s', hreads, himp s' hQ⟩

section Indicators

theorem Starts.of_ascii (hblank : isBlank x = false) (hbreak : isBreak x = false)
    (hcomment : x ≠ '#') (hascii : x.toNat < 0x80) : Starts x where
  blank := hblank
  unbroken := hbreak
  ne_comment := hcomment
  ne_mark := by
    rintro rfl
    exact absurd hascii (by decide)

theorem next_of_text (hcalm : s.Calm) (htext : s.cursor.text = x :: rest) (hx : Starts x) :
    s.next = s.settled.token := by
  refine next_of_head hcalm fun y hy => ?_
  rw [htext] at hy
  exact Option.some.inj hy ▸ hx

theorem yields_open (hcalm : s.Calm) {t : Token} (htext : s.cursor.text = x :: rest)
    (hx : x = '[' ∧ t = .flowSequenceStart ∨ x = '{' ∧ t = .flowMappingStart) :
    Yields s [x] true [t] fun s' => s'.level = s.level + 1 ∧ s'.keyAllowed = true := by
  have hbreak : isBreak x = false := by
    rcases hx with ⟨rfl, -⟩ | ⟨rfl, -⟩ <;> decide
  have htext' : s.settled.cursor.text = x :: rest := htext
  have hnext : s.next = (s.settled.openFlow t).map (·, true) := by
    rcases hx with ⟨rfl, rfl⟩ | ⟨rfl, rfl⟩
    · rw [next_of_text hcalm htext (.of_ascii (by decide) (by decide) (by decide) (by decide))]
      simp [token, htext', Cursor.atIndicator]
    · rw [next_of_text hcalm htext (.of_ascii (by decide) (by decide) (by decide) (by decide))]
      simp [token, htext', Cursor.atIndicator]
  have hnoted := hcalm.settled.noted
  rw [openFlow, saveCandidate_of_calm hcalm.settled] at hnext
  refine ⟨_, reads_of_next hcalm hnext (List.cons_ne_nil x []) (Cursor.advance_one _ hbreak)
    (Array.toList_push ..) ⟨hnoted.indent, hnoted.outer, rfl, fun k hk => ?_⟩, ?_, rfl⟩
  · rcases List.mem_cons.1 hk with rfl | hk
    · exact hnoted.candidate
    · exact hnoted.enclosing k hk
  · exact congrArg (· + 1) (List.length_map _)

theorem yields_close (hcalm : s.Calm) {t : Token} {n : Nat} (hlevel : s.level = n + 1)
    (htext : s.cursor.text = x :: rest)
    (hx : x = ']' ∧ t = .flowSequenceEnd ∨ x = '}' ∧ t = .flowMappingEnd) :
    Yields s [x] true [t] fun s' => s'.level = n := by
  have hbreak : isBreak x = false := by
    rcases hx with ⟨rfl, -⟩ | ⟨rfl, -⟩ <;> decide
  have htext' : s.settled.cursor.text = x :: rest := htext
  have hnext : s.next = (s.settled.closeFlow t).map (·, true) := by
    rcases hx with ⟨rfl, rfl⟩ | ⟨rfl, rfl⟩
    · rw [next_of_text hcalm htext (.of_ascii (by decide) (by decide) (by decide) (by decide))]
      simp [token, htext', Cursor.atIndicator]
    · rw [next_of_text hcalm htext (.of_ascii (by decide) (by decide) (by decide) (by decide))]
      simp [token, htext', Cursor.atIndicator]
  have hlength : s.settled.level = n + 1 := by
    rw [level, settled, List.length_map]
    exact hlevel
  have hsettled := hcalm.settled
  rw [closeFlow, dropCandidate_of_calm hsettled] at hnext
  cases henclosing : s.settled.enclosing with
  | nil => simp [level, henclosing] at hlength
  | cons k ks =>
      simp only [henclosing] at hnext
      have hks : ks.length = n := by simpa [level, henclosing] using hlength
      have hcandidates := hsettled.enclosing
      rw [henclosing] at hcandidates
      exact ⟨_, reads_of_next hcalm hnext (List.cons_ne_nil x []) (Cursor.advance_one _ hbreak)
        (Array.toList_push ..) ⟨hsettled.indent, hsettled.outer,
          hcandidates k List.mem_cons_self, fun k' hk' =>
            hcandidates k' (List.mem_cons_of_mem k hk')⟩, hks⟩

theorem yields_comma (hcalm : s.Calm) (htext : s.cursor.text = ',' :: rest) :
    Yields s [','] true [.flowEntry] fun s' => s'.level = s.level ∧ s'.keyAllowed = true := by
  have htext' : s.settled.cursor.text = ',' :: rest := htext
  have hnext : s.next = (s.settled.dropCandidate.map fun s =>
      { s.indicator 1 .flowEntry with keyAllowed := true }).map (·, true) := by
    rw [next_of_text hcalm htext (.of_ascii (by decide) (by decide) (by decide) (by decide))]
    simp [token, htext', Cursor.atIndicator]
  have hsettled := hcalm.settled
  rw [dropCandidate_of_calm hsettled] at hnext
  exact ⟨_, reads_of_next hcalm hnext (List.cons_ne_nil ',' []) (Cursor.advance_one _ (by decide))
    (Array.toList_push ..) ⟨hsettled.indent, hsettled.outer, rfl, hsettled.enclosing⟩,
    List.length_map _, rfl⟩

end Indicators

section Quotes

open Json.Writer

/-- The candidate that a state remembers where a key may begin. -/
def place (s : State) : Candidate :=
  ⟨false, s.tokens.size, s.cursor.index, s.cursor.line, s.cursor.column⟩

theorem yields_quoted (hcalm : s.Calm) {t : String}
    (htext : s.cursor.text = (quoted t).toList ++ rest) :
    Yields s (quoted t).toList (Scalar.content? t).isSome [.scalar .quoted (Scalar.content t)]
      fun s' => s'.level = s.level ∧ (s.keyAllowed = true → s'.candidate = some s.place) := by
  have hquote : (quoted t).toList = '"' :: (t.toList.flatMap escape ++ ['"']) := Json.Writer.toList_quoted t
  have hread := Scalar.quoted_of_quoted (c := s.settled.cursor) htext
  have htext' : s.cursor.text = '"' :: (t.toList.flatMap escape ++ '"' :: rest) := by
    rw [htext, hquote]
    simp
  have htext'' : s.settled.cursor.text = '"' :: (t.toList.flatMap escape ++ '"' :: rest) := htext'
  have hsettled := hcalm.settled
  have hnoted := hsettled.noted
  have hnext : s.next = ((Scalar.quoted false s.settled.cursor).map
      (fun r => (String.ofList r.1, r.2))).map fun r =>
        ({ s.settled.noted.emit (.scalar .quoted r.1) with
          cursor := r.2, keyAllowed := false }, true) := by
    rw [next_of_text hcalm htext' (.of_ascii (by decide) (by decide) (by decide) (by decide))]
    simp [token, htext'', Cursor.atIndicator, saveCandidate_of_calm hsettled]
    cases Scalar.quoted false s.settled.cursor <;> rfl
  rw [hread] at hnext
  rw [Scalar.content]
  cases hcontent : Scalar.content? t with
  | none =>
      rw [hcontent] at hnext
      exact fails_of_next hnext
  | some content =>
      rw [hcontent] at hnext
      refine ⟨_, reads_of_next hcalm hnext (by simp [hquote]) rfl (Array.toList_push ..)
        ⟨hnoted.indent, hnoted.outer, hnoted.candidate, hnoted.enclosing⟩, List.length_map _, ?_⟩
      intro hkey
      exact if_pos hkey

/-- A quoted key that YAML finds: it stands on one line and takes at most 1024 bytes. -/
def fits (w : List Char) : Bool := !w.any isBreak && decide (width w ≤ 1024)

theorem isStale_past {c : Cursor} {k : Candidate} (htext : c.text = w ++ rest)
    (hline : k.line = c.line) (hindex : k.index = c.index) :
    isStale (c.past w) k = !fits w := by
  have hbreak : decide (c.line < c.line + w.countP isBreak) = w.any isBreak := by
    rw [Bool.eq_iff_iff, decide_eq_true_iff, Nat.lt_add_right_iff_pos, List.countP_pos_iff,
      List.any_eq_true]
  rw [isStale, Cursor.line_past, Cursor.index_past htext, hline, hindex, hbreak, fits, Bool.not_and,
    Bool.not_not, ← decide_not]
  congr 2
  rw [eq_iff_iff]
  omega

theorem insertIdx_length (l m : List Token) (t : Token) :
    (l ++ m).insertIdx l.length t = l ++ t :: m := by
  induction l with
  | nil => rfl
  | cons x l ih => simp [ih]

theorem tokens_insertAt {ts us : List Token} {n : Nat} (h : s.tokens.toList = ts ++ us)
    (hn : n = ts.length) (t : Token) :
    (s.insertAt n t).tokens.toList = ts ++ t :: us := by
  have hsize : n ≤ s.tokens.size := by
    rw [← Array.length_toList, h, List.length_append]
    omega
  rw [insertAt, Array.insertIdxIfInBounds, dif_pos hsize, Array.toList_insertIdx, h, hn,
    insertIdx_length]

theorem roll_of_flow (h : s.inFlow = true) (column position : Nat) (t : Token) :
    s.roll column position t = s := by
  rw [roll, h]
  rfl

theorem inFlow_settled {n : Nat} (h : s.level = n + 1) : s.settled.inFlow = true := by
  rw [inFlow, settled]
  cases henclosing : s.enclosing with
  | nil => simp [level, henclosing] at h
  | cons k ks => rfl

theorem yields_key (hcalm : s.Calm) {n : Nat} (hlevel : s.level = n + 1)
    (hkey : s.keyAllowed = true) {k : String}
    (htext : s.cursor.text = (quoted k).toList ++ ':' :: rest) :
    Yields s ((quoted k).toList ++ [':']) (Scalar.content? k).isSome
      ((if fits (quoted k).toList then [.key] else []) ++ [.scalar .quoted (Scalar.content k), .value])
      fun s' => s'.level = s.level := by
  have hquoted := yields_quoted hcalm htext
  cases hcontent : (Scalar.content? k).isSome with
  | false =>
      rw [hcontent] at hquoted
      have hfails : Fails s := hquoted
      exact hfails
  | true =>
      rw [hcontent] at hquoted
      obtain ⟨s₁, hreads, hlevel₁, hplace⟩ := hquoted
      have htext₁ : s₁.cursor.text = ':' :: rest := hreads.text htext
      have htext' : s₁.settled.cursor.text = ':' :: rest := htext₁
      have hsettled := hreads.calm.settled
      have hflow : s₁.settled.inFlow = true := inFlow_settled (hlevel₁.trans hlevel)
      -- The place of the text is still remembered unless the text was too long for a key.
      have hcandidate : s₁.settled.candidate =
          if fits (quoted k).toList then some s.place else none := by
        have hstale := isStale_past (k := s.place) htext rfl rfl
        rw [← hreads.cursor] at hstale
        rw [settled, keep, hplace hkey, Option.any_some, hstale]
        cases fits (quoted k).toList <;> rfl
      have hnext : s₁.next = s₁.settled.value.map (·, true) := by
        rw [next_of_text hreads.calm htext₁
          (.of_ascii (by decide) (by decide) (by decide) (by decide))]
        simp [token, htext', Cursor.atIndicator, hflow]
      have hcursor := Cursor.advance_one (x := ':') s₁.cursor (by decide)
      rw [value, hcandidate] at hnext
      cases hfits : fits (quoted k).toList with
      | true =>
          have hflow' : (s₁.settled.insertAt s.tokens.size .key).inFlow = true := hflow
          have hsize : s.tokens.size = s.tokens.toList.length := Array.length_toList.symm
          have htokens := tokens_insertAt (s := s₁.settled) hreads.tokens hsize .key
          rw [hfits] at hnext
          simp only [if_true, place, roll_of_flow hflow'] at hnext
          refine ⟨_, hreads.step hnext (List.cons_ne_nil ':' []) hcursor ?_
            ⟨hsettled.indent, hsettled.outer, rfl, hsettled.enclosing⟩,
            (List.length_map _).trans hlevel₁⟩
          refine (Array.toList_push ..).trans ?_
          rw [htokens, List.append_assoc]
          rfl
      | false =>
          rw [hfits] at hnext
          simp only [Bool.false_eq_true, if_false, hflow, roll_of_flow hflow] at hnext
          refine ⟨_, hreads.step hnext (List.cons_ne_nil ':' []) hcursor ?_
            ⟨hsettled.indent, hsettled.outer, hsettled.candidate, hsettled.enclosing⟩,
            (List.length_map _).trans hlevel₁⟩
          refine (Array.toList_push ..).trans ?_
          change s₁.tokens.toList ++ [.value] = _
          rw [hreads.tokens, List.append_assoc]
          rfl

end Quotes

section Words

def isWordChar (x : Char) : Bool := x.isAlphanum || x == '.' || x == '+' || x == '-'

/-- A plain scalar that JSON writes: a letter or digit comes first, perhaps after a sign. -/
structure Plainly (w : List Char) : Prop where
  chars : ∀ x ∈ w, isWordChar x = true
  starts : ∃ x u, x.isAlphanum = true ∧ (w = x :: u ∨ w = '-' :: x :: u)

theorem ne_of_isWordChar (h : isWordChar x = true) {y : Char} (hy : isWordChar y = false) :
    x ≠ y := by
  rintro rfl
  rw [h] at hy
  exact nomatch hy

theorem isWordChar_of_isAlphanum (h : x.isAlphanum = true) : isWordChar x = true := by
  simp [isWordChar, h]

theorem isBlank_of_isWordChar (h : isWordChar x = true) : isBlank x = false := by
  simp [isBlank, ne_of_isWordChar h (y := ' ') (by decide), ne_of_isWordChar h (y := '\t') (by decide)]

theorem isBreak_of_isWordChar (h : isWordChar x = true) : isBreak x = false := by
  simp [isBreak, ne_of_isWordChar h (y := '\n') (by decide), ne_of_isWordChar h (y := '\r') (by decide),
    ne_of_isWordChar h (y := '\u0085') (by decide), ne_of_isWordChar h (y := '\u2028') (by decide),
    ne_of_isWordChar h (y := '\u2029') (by decide)]

theorem isFlowIndicator_of_isWordChar (h : isWordChar x = true) :
    Scalar.isFlowIndicator x = false := by
  simp [Scalar.isFlowIndicator, ne_of_isWordChar h (y := ',') (by decide),
    ne_of_isWordChar h (y := '[') (by decide), ne_of_isWordChar h (y := ']') (by decide),
    ne_of_isWordChar h (y := '{') (by decide), ne_of_isWordChar h (y := '}') (by decide)]

/-- What follows a value inside brackets or braces. -/
def Closes (rest : List Char) : Prop := ∃ x u, rest = x :: u ∧ (x = ',' ∨ x = ']' ∨ x = '}')

theorem plainRun_of_closes (h : Closes rest) : Scalar.plainRun true rest = some 0 := by
  obtain ⟨x, u, rfl, rfl | rfl | rfl⟩ := h <;>
    simp [Scalar.plainRun, isBlank, isBreak, Scalar.isFlowIndicator]

theorem plainRun_of_word (h : ∀ x ∈ w, isWordChar x = true) (hrest : Closes rest) :
    Scalar.plainRun true (w ++ rest) = some w.length := by
  induction w with
  | nil => exact plainRun_of_closes hrest
  | cons x w ih =>
      have hx := h x List.mem_cons_self
      have hcolon := ne_of_isWordChar hx (y := ':') (by decide)
      rw [List.cons_append, Scalar.plainRun, ih fun y hy => h y (List.mem_cons_of_mem x hy)]
      simp [isBlank_of_isWordChar hx, isBreak_of_isWordChar hx, isFlowIndicator_of_isWordChar hx,
        hcolon]

theorem Plainly.not_atDocumentIndicator (h : Plainly w) {c : Cursor}
    (htext : c.text = w ++ rest) : c.atDocumentIndicator = false := by
  obtain ⟨x, u, hx, hw⟩ := h.starts
  have hword := isWordChar_of_isAlphanum hx
  have hdash : x ≠ '-' := by
    rintro rfl
    exact absurd hx (by decide)
  have hdot : x ≠ '.' := by
    rintro rfl
    exact absurd hx (by decide)
  rcases hw with rfl | rfl <;> simp [Cursor.atDocumentIndicator, Cursor.atIndicator, htext, hdash, hdot]

theorem plain_of_word (h : Plainly w) (hrest : Closes rest) (indent : Nat) {c : Cursor}
    (htext : c.text = w ++ rest) :
    Scalar.plain true indent c = some (w, c.past w, false) := by
  have hindicator := h.not_atDocumentIndicator htext
  have hrun := plainRun_of_word h.chars hrest
  have hadvance := Cursor.advance_eq_past c fun x hx => isBreak_of_isWordChar (h.chars x hx)
  obtain ⟨y, v, rfl⟩ : ∃ y v, w = y :: v := by
    obtain ⟨x, u, -, rfl | rfl⟩ := h.starts
    · exact ⟨x, u, rfl⟩
    · exact ⟨'-', x :: u, rfl⟩
  have hcomment : c.nextIs '#' = false := by
    have hy := ne_of_isWordChar (h.chars y List.mem_cons_self) (y := '#') (by decide)
    simp [Cursor.nextIs, htext, hy]
  have hends : (c.past (y :: v)).satisfies (fun x => isBlank x || isBreak x) = false := by
    rw [Cursor.satisfies, Cursor.text_past htext]
    obtain ⟨x, u, rfl, rfl | rfl | rfl⟩ := hrest <;> simp [isBlank, isBreak]
  rw [Scalar.plain, Scalar.plainFrom, hindicator, hcomment, htext, hrun]
  simp only [Option.bind_eq_bind, Option.bind_some, hadvance, hends]
  simp [Scalar.Gap.fold]

theorem next_of_plainly (hcalm : s.Calm) (hflow : s.settled.inFlow = true) {t : List Char}
    (h : Plainly t) (htext : s.cursor.text = t ++ rest) :
    s.next = (Scalar.plain true (s.settled.noted.indent + 1).toNat s.settled.cursor).map
      fun r => ({ s.settled.noted.emit (.scalar .plain (String.ofList r.1)) with
        cursor := r.2.1, keyAllowed := r.2.2 }, true) := by
  have hsettled := hcalm.settled
  have hflow' : s.settled.noted.inFlow = true := hflow
  have htext' : s.settled.cursor.text = t ++ rest := htext
  obtain ⟨x, u, hx, hw⟩ := h.starts
  have hword := isWordChar_of_isAlphanum hx
  have hne : ∀ y, y.isAlphanum = false → x ≠ y := by
    rintro y hy rfl
    rw [hx] at hy
    exact nomatch hy
  rcases hw with hw | hw
  · rw [hw] at htext htext'
    have hstarts : Starts x := ⟨isBlank_of_isWordChar hword, isBreak_of_isWordChar hword,
      hne '#' (by decide), hne byteOrderMark (by decide)⟩
    rw [next_of_text hcalm htext hstarts]
    simp [token, htext', Cursor.atIndicator, saveCandidate_of_calm hsettled, hflow,
      hne '%' (by decide), hne '-' (by decide), hne '.' (by decide), hne '[' (by decide),
      hne ']' (by decide), hne '{' (by decide), hne '}' (by decide), hne ',' (by decide),
      hne '?' (by decide), hne ':' (by decide), hne '*' (by decide), hne '&' (by decide),
      hne '!' (by decide), hne '|' (by decide), hne '>' (by decide), hne '"' (by decide),
      hne (Char.ofNat 39) (by decide), hne '#' (by decide), hne '@' (by decide),
      hne (Char.ofNat 96) (by decide), isBlank_of_isWordChar hword, isBreak_of_isWordChar hword]
    rw [hflow']
    cases Scalar.plain true (s.settled.noted.indent + 1).toNat s.settled.cursor <;> rfl
  · rw [hw] at htext htext'
    rw [next_of_text hcalm htext (.of_ascii (by decide) (by decide) (by decide) (by decide))]
    simp [token, htext', Cursor.atIndicator, Cursor.blankOrEndAt, saveCandidate_of_calm hsettled,
      hne '-' (by decide), isBlank_of_isWordChar hword, isBreak_of_isWordChar hword, hflow]
    rw [hflow']
    cases Scalar.plain true (s.settled.noted.indent + 1).toNat s.settled.cursor <;> rfl

theorem yields_plain (hcalm : s.Calm) {n : Nat} (hlevel : s.level = n + 1) {t : String}
    (h : Plainly t.toList) (hrest : Closes rest) (htext : s.cursor.text = t.toList ++ rest) :
    Yields s t.toList true [.scalar .plain t] fun s' => s'.level = s.level := by
  have hsettled := hcalm.settled
  have hnoted := hsettled.noted
  have hflow : s.settled.inFlow = true := inFlow_settled hlevel
  have htext' : s.settled.cursor.text = t.toList ++ rest := htext
  have hplain := plain_of_word h hrest (s.settled.noted.indent + 1).toNat htext'
  have hnext := next_of_plainly hcalm hflow h htext
  rw [hplain, Option.map_some, String.ofList_toList] at hnext
  have hne : t.toList ≠ [] := by
    obtain ⟨x, u, -, hw | hw⟩ := h.starts <;> simp [hw]
  refine ⟨_, reads_of_next hcalm hnext hne rfl ?_ ?_, ?_⟩
  · exact Array.toList_push ..
  · exact ⟨hnoted.indent, hnoted.outer, hnoted.candidate, hnoted.enclosing⟩
  · exact List.length_map _

end Words

end ResourceGraph.Yaml.Lexer.State
