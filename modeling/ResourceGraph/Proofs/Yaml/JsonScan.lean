import ResourceGraph.Proofs.Yaml.JsonText

namespace ResourceGraph.Json

open Yaml Yaml.Lexer Yaml.Lexer.State

section Characters

/-- Characters that YAML refuses unless they are escaped are control characters here. -/
def isPrintable (t : String) : Bool := t.toList.all fun c => decide (c.toNat < 0x20) || isAllowed c

theorem isAllowed_of_printable {x : Char} (h : 0x20 ≤ x.toNat ∧ x.toNat < 0x7F) :
    isAllowed x = true := by
  have hlow : (decide (0x20 ≤ x.toNat) && decide (x.toNat ≤ 0x7E)) = true := by
    simp only [Bool.and_eq_true, decide_eq_true_eq]
    omega
  simp [isAllowed, hlow]

theorem all_isAllowed_escape (c : Char) :
    (Writer.escape c).all isAllowed = (decide (c.toNat < 0x20) || isAllowed c) := by
  rcases Scalar.escape_cases c with ⟨hescape, -, -, hc⟩ | ⟨⟨w, hescape, hnames⟩, hc⟩
  · have hcontrol : ¬c.toNat < 0x20 := Nat.not_lt.2 hc
    simp [hescape, hcontrol]
  · have hw : w.all isAllowed = true :=
      List.all_eq_true.2 fun x hx => isAllowed_of_printable (hnames.printable x hx)
    have hslash : isAllowed '\\' = true := isAllowed_of_printable (by decide)
    rw [hescape, List.all_cons, hw, hslash]
    by_cases hcontrol : c.toNat < 0x20
    · simp [hcontrol]
    · simp [isAllowed_of_printable (x := c) ⟨Nat.not_lt.1 hcontrol, hc⟩]

theorem all_isAllowed_quoted (t : String) :
    (Writer.quoted t).toList.all isAllowed = isPrintable t := by
  have hquote : isAllowed '"' = true := isAllowed_of_printable (by decide)
  rw [Writer.toList_quoted, isPrintable]
  simp only [List.cons_append, List.all_cons, List.all_append, hquote, List.all_flatMap,
    all_isAllowed_escape]
  simp

theorem isAllowed_of_isWordChar {x : Char} (h : isWordChar x = true) : isAllowed x = true := by
  have hrange : x.isAlphanum = true → 0x20 ≤ x.toNat ∧ x.toNat < 0x7F := by
    intro hx
    change ((decide (65 ≤ x.val ∧ x.val ≤ 90) ||
      (decide (97 ≤ x.val) && decide (x.val ≤ 122))) ||
        (decide (48 ≤ x.val) && decide (x.val ≤ 57))) = true at hx
    simp only [Bool.or_eq_true, Bool.and_eq_true, decide_eq_true_eq, UInt32.le_iff_toNat_le] at hx
    change ((65 ≤ x.toNat ∧ x.toNat ≤ 90) ∨ (97 ≤ x.toNat ∧ x.toNat ≤ 122)) ∨
      (48 ≤ x.toNat ∧ x.toNat ≤ 57) at hx
    omega
  simp only [isWordChar, Bool.or_eq_true, beq_iff_eq] at h
  rcases h with ((h | rfl) | rfl) | rfl
  · exact isAllowed_of_printable (hrange h)
  · exact isAllowed_of_printable (by decide)
  · exact isAllowed_of_printable (by decide)
  · exact isAllowed_of_printable (by decide)

theorem all_isAllowed_of_plainly {w : List Char} (h : Plainly w) : w.all isAllowed = true :=
  List.all_eq_true.2 fun x hx => isAllowed_of_isWordChar (h.chars x hx)

theorem all_isAllowed_joined (first : Bool) (x : String) (rest : List String) :
    (joined first (x :: rest)).all isAllowed =
      (x.toList.all isAllowed && (joined false rest).all isAllowed) := by
  have hcomma : isAllowed ',' = true := isAllowed_of_printable (by decide)
  cases first <;> simp [joined, hcomma]

mutual

theorem all_isAllowed_text (j : Json) :
    j.text.toList.all isAllowed = j.texts.all isPrintable := by
  have hbrackets : ∀ x ∈ ['[', ']', '{', '}'], isAllowed x = true := by
    simp [isAllowed]
  match j with
  | .null => exact all_isAllowed_of_plainly plainly_null
  | .bool b => exact all_isAllowed_of_plainly (plainly_bool b)
  | .number n => exact all_isAllowed_of_plainly (plainly_json n)
  | .string t => rw [text, all_isAllowed_quoted, texts, List.all_cons, List.all_nil, Bool.and_true]
  | .array items =>
      rw [toList_text_array, List.all_cons, List.all_append, all_isAllowed_items items true, texts]
      simp [hbrackets]
  | .object members =>
      rw [toList_text_object, List.all_cons, List.all_append, all_isAllowed_members members true,
        texts]
      simp [hbrackets]

theorem all_isAllowed_items (items : List Json) (first : Bool) :
    (joined first (itemTexts items)).all isAllowed = (textsOfItems items).all isPrintable := by
  match items with
  | [] => rfl
  | x :: rest =>
      rw [itemTexts, all_isAllowed_joined, all_isAllowed_text x, all_isAllowed_items rest false,
        textsOfItems, List.all_append]

theorem all_isAllowed_members (members : List (String × Json)) (first : Bool) :
    (joined first (memberTexts members)).all isAllowed =
      (textsOfMembers members).all isPrintable := by
  match members with
  | [] => rfl
  | (k, x) :: rest =>
      have hcolon : isAllowed ':' = true := isAllowed_of_printable (by decide)
      rw [memberTexts, all_isAllowed_joined, all_isAllowed_members rest false, textsOfMembers,
        List.all_cons, List.all_append, String.toList_append, String.toList_append, List.all_append,
        List.all_append, all_isAllowed_quoted, all_isAllowed_text x]
      simp [hcolon, Bool.and_assoc]

end

end Characters

theorem calm_start (w : List Char) : (State.start w).Calm where
  indent := rfl
  outer := rfl
  candidate := rfl
  enclosing _ hk := nomatch hk

theorem run_of_end {s : State} (hcalm : s.Calm) (htext : s.cursor.text = []) (fuel : Nat) :
    ∃ s', run (fuel + 1) s = some s' ∧ s'.tokens = s.tokens := by
  have hsettled := hcalm.settled
  have hnext : s.next = some ({ s.settled with candidate := none, keyAllowed := false }, false) := by
    rw [next_of_head hcalm (by rw [htext]; exact fun x hx => nomatch hx), token]
    have htext' : s.settled.cursor.text = [] := htext
    simp only [htext', outsideBlocks, unroll_of_calm hsettled, dropCandidate_of_calm hsettled]
    rfl
  rw [run_succ, hnext]
  exact ⟨_, rfl, rfl⟩

theorem yields_object (members : List (String × Json)) :
    let w := (text (.object members)).toList
    Yields (State.start w) w ((texts (.object members)).all isReadable)
      (tokens (.object members)) fun _ => True := by
  intro w
  have hw : w = '{' :: (joined true (memberTexts members) ++ ['}']) := toList_text_object members
  rw [hw]
  have hyields : Yields (State.start ('{' :: (joined true (memberTexts members) ++ ['}'])))
      ('{' :: (joined true (memberTexts members) ++ ['}']))
      ((texts (.object members)).all isReadable) (tokens (.object members))
      fun s' => s'.level = 0 := by
    refine yields_enclosed (.inr ⟨rfl, rfl⟩) (.inr ⟨rfl, rfl⟩) (calm_start _) rfl ?_
    intro s' hcalm hlevel hkey htext
    exact yields_members members true hcalm hlevel (fun _ => hkey) htext
  exact hyields.weaken fun s' _ => trivial

theorem scan?_object (members : List (String × Json)) :
    Token.scan? (text (.object members)) =
      if (texts (.object members)).all fun t => isPrintable t && isReadable t then
        some (tokens (.object members))
      else none := by
  have hyields := yields_object members
  have hboth : ((texts (.object members)).all fun t => isPrintable t && isReadable t) =
      ((texts (.object members)).all isPrintable && (texts (.object members)).all isReadable) := by
    rw [Bool.eq_iff_iff]
    simp only [List.all_eq_true, Bool.and_eq_true, ← forall₂_and]
  rw [Token.scan?, all_isAllowed_text, hboth]
  cases (texts (.object members)).all isPrintable with
  | false => rfl
  | true =>
      cases hok : (texts (.object members)).all isReadable with
      | false =>
          rw [hok] at hyields
          have hfails : Fails (State.start (text (.object members)).toList) := hyields
          simp [hfails ((text (.object members)).toList.length + 2)]
      | true =>
          rw [hok] at hyields
          obtain ⟨s, hreads, -⟩ := hyields
          obtain ⟨n, hn, hrun⟩ := hreads.run
          have htext : s.cursor.text = [] := hreads.text (List.append_nil _).symm
          obtain ⟨s', hend, htokens⟩ := run_of_end hreads.calm htext
            ((text (.object members)).toList.length - n + 1)
          have hfuel : (text (.object members)).toList.length + 2 =
              n + ((text (.object members)).toList.length - n + 1 + 1) := by omega
          have htoList : s'.tokens.toList = tokens (.object members) := by
            rw [htokens]
            exact hreads.tokens
          simp only [hfuel, hrun, hend]
          simp [htoList]

end ResourceGraph.Json
