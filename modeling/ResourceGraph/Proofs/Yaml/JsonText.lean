import ResourceGraph.Proofs.Json.Texts
import ResourceGraph.Proofs.Yaml.Lexer
import ResourceGraph.Proofs.Yaml.Plain

namespace ResourceGraph.Json

open Yaml Yaml.Lexer Yaml.Lexer.State

def nameTokens (k : String) : List Token :=
  (if fits (Writer.quoted k).toList then [.key] else []) ++
    [.scalar .quoted (Scalar.content k), .value]

def commaTokens (first : Bool) : List Token := if first then [] else [.flowEntry]

mutual

def tokens : Json → List Token
  | .string s => [.scalar .quoted (Scalar.content s)]
  | .array items => .flowSequenceStart :: (tokensOfItems true items ++ [.flowSequenceEnd])
  | .object members => .flowMappingStart :: (tokensOfMembers true members ++ [.flowMappingEnd])
  | .null => [.scalar .plain (text .null)]
  | .bool b => [.scalar .plain (text (.bool b))]
  | .number n => [.scalar .plain (text (.number n))]

def tokensOfItems (first : Bool) : List Json → List Token
  | [] => []
  | x :: rest => commaTokens first ++ (x.tokens ++ tokensOfItems false rest)

def tokensOfMembers (first : Bool) : List (String × Json) → List Token
  | [] => []
  | (k, x) :: rest =>
      commaTokens first ++ (nameTokens k ++ (x.tokens ++ tokensOfMembers false rest))

end

/-- The text stays a text when it is quoted and read as YAML. -/
def isReadable (t : String) : Bool := (Scalar.content? t).isSome

section Numbers

theorem isAlphanum_of_isDigit {x : Char} (h : Plain.isDigit x = true) : x.isAlphanum = true := by
  have hdigit : x.isDigit = true := by
    simpa [Plain.isDigit, Char.isDigit, Char.le_def] using h
  simp [Char.isAlphanum, hdigit]

theorem isWordChar_of_isNumeric {x : Char} (h : Plain.isNumeric x = true) :
    isWordChar x = true := by
  rw [Plain.isNumeric, Bool.or_eq_true] at h
  rcases h with h | h
  · exact isWordChar_of_isAlphanum (isAlphanum_of_isDigit h)
  · have hcases : x = '.' ∨ x = 'e' ∨ x = '+' ∨ x = '-' := by simpa using h
    rcases hcases with rfl | rfl | rfl | rfl <;> decide

theorem plainly_of_numeric {w body : List Char} (h : ∀ x ∈ w, Plain.isNumeric x = true)
    (hbody : ∃ x ∈ body.head?, Plain.isDigit x = true) (hw : w = body ∨ w = '-' :: body) :
    Plainly w where
  chars x hx := isWordChar_of_isNumeric (h x hx)
  starts := by
    obtain ⟨x, hhead, hdigit⟩ := hbody
    obtain ⟨u, rfl⟩ := List.head?_eq_some_iff.1 hhead
    exact ⟨x, u, isAlphanum_of_isDigit hdigit, hw⟩

theorem plainly_json (n : Number) : Plainly n.json.toList := by
  cases n with
  | int i =>
      obtain ⟨d, rest, hcons, hd⟩ := Plain.exists_toDigits_cons i.natAbs
      have hbody : ∃ x ∈ (Nat.toDigits 10 i.natAbs).head?, Plain.isDigit x = true :=
        ⟨d, by rw [hcons]; rfl, hd⟩
      refine plainly_of_numeric (Plain.isNumeric_toString i) hbody ?_
      rcases Plain.toList_toString i with ⟨heq, -⟩ | ⟨heq, -⟩
      · exact .inl heq
      · exact .inr heq
  | float d =>
      have hplus : numberLayout.plus.toList = [] ∨ numberLayout.plus.toList = ['+'] := .inr rfl
      have hshaped := Plain.shaped_body hplus d.shortest
      have hsign : (numberLayout.render d.negative d.shortest).toList =
          numberLayout.body d.shortest ∨ (numberLayout.render d.negative d.shortest).toList =
            '-' :: numberLayout.body d.shortest := by
        rw [Plain.toList_render]
        cases d.negative with
        | false => exact .inl rfl
        | true => exact .inr rfl
      exact plainly_of_numeric (Plain.isNumeric_render hplus d.negative d.shortest) hshaped.starts
        hsign

end Numbers

theorem plainly_letters {w : List Char} (hne : w ≠ []) (h : w.all Char.isAlphanum = true) :
    Plainly w where
  chars x hx := isWordChar_of_isAlphanum (List.all_eq_true.1 h x hx)
  starts := by
    obtain ⟨x, u, rfl⟩ := List.exists_cons_of_ne_nil hne
    exact ⟨x, u, List.all_eq_true.1 h x List.mem_cons_self, .inl rfl⟩

theorem plainly_null : Plainly (text .null).toList :=
  plainly_letters (by decide) (by decide)

theorem plainly_bool (b : Bool) : Plainly (text (.bool b)).toList := by
  cases b <;> exact plainly_letters (by decide) (by decide)

section Values

variable {s : State} {rest : List Char}

theorem yields_enclosed {x y : Char} {t u : Token} {w : List Char} {ok : Bool} {ts : List Token}
    (hx : x = '[' ∧ t = .flowSequenceStart ∨ x = '{' ∧ t = .flowMappingStart)
    (hy : y = ']' ∧ u = .flowSequenceEnd ∨ y = '}' ∧ u = .flowMappingEnd) (hcalm : s.Calm)
    (htext : s.cursor.text = x :: (w ++ y :: rest))
    (hinner : ∀ s' : State, s'.Calm → s'.level = s.level + 1 → s'.keyAllowed = true →
      s'.cursor.text = w ++ y :: rest → Yields s' w ok ts fun s'' => s''.level = s'.level) :
    Yields s (x :: (w ++ [y])) ok (t :: (ts ++ [u])) fun s' => s'.level = s.level := by
  have hall : Yields s ([x] ++ (w ++ [y])) (true && (ok && true)) ([t] ++ (ts ++ [u]))
      fun s' => s'.level = s.level := by
    refine (yields_open hcalm htext hx).append fun s₁ hreads₁ hlevel₁ => ?_
    have htext₁ := hreads₁.text (w := [x]) htext
    refine (hinner s₁ hreads₁.calm hlevel₁.1 hlevel₁.2 htext₁).append fun s₂ hreads₂ hlevel₂ => ?_
    exact yields_close hreads₂.calm (hlevel₂.trans hlevel₁.1) (hreads₂.text htext₁) hy
  rw [Bool.and_true, Bool.true_and] at hall
  exact hall

theorem yields_separator (first : Bool) (hcalm : s.Calm)
    (hkey : first = true → s.keyAllowed = true)
    (htext : s.cursor.text = (if first then [] else [',']) ++ rest) :
    Yields s (if first then [] else [',']) true (commaTokens first)
      fun s' => s'.level = s.level ∧ s'.keyAllowed = true := by
  cases first with
  | true => exact ⟨s, reads_nil hcalm, rfl, hkey rfl⟩
  | false => exact yields_comma hcalm htext

theorem closes_joined {y : Char} {u : List Char} (hy : y = ']' ∨ y = '}') (texts : List String) :
    Closes (joined false texts ++ y :: u) := by
  cases texts with
  | nil => exact ⟨y, u, rfl, .inr hy⟩
  | cons x texts => exact ⟨',', _, rfl, .inl rfl⟩

mutual

theorem yields_text {s : State} {rest : List Char} (j : Json) (hcalm : s.Calm) {n : Nat}
    (hlevel : s.level = n + 1) (hrest : Closes rest)
    (htext : s.cursor.text = j.text.toList ++ rest) :
    Yields s j.text.toList (j.texts.all isReadable) j.tokens fun s' => s'.level = s.level := by
  cases j with
  | null => exact yields_plain hcalm hlevel plainly_null hrest htext
  | bool b => exact yields_plain hcalm hlevel (plainly_bool b) hrest htext
  | number m => exact yields_plain hcalm hlevel (plainly_json m) hrest htext
  | string t =>
      have hquoted := (yields_quoted hcalm htext).weaken fun s' h => h.1
      rw [texts, List.all_cons, List.all_nil, Bool.and_true]
      exact hquoted
  | array items =>
      rw [toList_text_array, List.cons_append, List.append_assoc] at htext
      rw [toList_text_array]
      refine yields_enclosed (.inl ⟨rfl, rfl⟩) (.inl ⟨rfl, rfl⟩) hcalm htext ?_
      intro s' hcalm' hlevel' hkey htext'
      exact yields_items items true hcalm' hlevel' (fun _ => hkey) htext'
  | object members =>
      rw [toList_text_object, List.cons_append, List.append_assoc] at htext
      rw [toList_text_object]
      refine yields_enclosed (.inr ⟨rfl, rfl⟩) (.inr ⟨rfl, rfl⟩) hcalm htext ?_
      intro s' hcalm' hlevel' hkey htext'
      exact yields_members members true hcalm' hlevel' (fun _ => hkey) htext'

theorem yields_items {s : State} {rest : List Char} (items : List Json) (first : Bool)
    (hcalm : s.Calm) {n : Nat} (hlevel : s.level = n + 1)
    (hkey : first = true → s.keyAllowed = true)
    (htext : s.cursor.text = joined first (itemTexts items) ++ ']' :: rest) :
    Yields s (joined first (itemTexts items)) ((textsOfItems items).all isReadable)
      (tokensOfItems first items) fun s' => s'.level = s.level := by
  match items with
  | [] => exact ⟨s, reads_nil hcalm, rfl⟩
  | x :: more =>
      rw [itemTexts, joined, List.append_assoc, List.append_assoc] at htext
      rw [itemTexts, joined, textsOfItems, List.all_append, tokensOfItems, ← Bool.true_and (_ && _)]
      refine (yields_separator first hcalm hkey htext).append fun s₁ hreads₁ hlevel₁ => ?_
      have htext₁ := hreads₁.text htext
      have hx := yields_text x hreads₁.calm (hlevel₁.1.trans hlevel)
        (closes_joined (.inl rfl) (itemTexts more)) htext₁
      refine hx.append fun s₂ hreads₂ hlevel₂ => ?_
      have hlevel' : s₂.level = s.level := hlevel₂.trans hlevel₁.1
      have hmore := yields_items more false hreads₂.calm (hlevel'.trans hlevel)
        (fun h => nomatch h) (hreads₂.text htext₁)
      exact hmore.weaken fun s₃ h => h.trans hlevel'

theorem yields_members {s : State} {rest : List Char} (members : List (String × Json))
    (first : Bool) (hcalm : s.Calm) {n : Nat} (hlevel : s.level = n + 1)
    (hkey : first = true → s.keyAllowed = true)
    (htext : s.cursor.text = joined first (memberTexts members) ++ '}' :: rest) :
    Yields s (joined first (memberTexts members)) ((textsOfMembers members).all isReadable)
      (tokensOfMembers first members) fun s' => s'.level = s.level := by
  match members with
  | [] => exact ⟨s, reads_nil hcalm, rfl⟩
  | (k, x) :: more =>
      have hmember : (Writer.quoted k ++ ":" ++ x.text).toList =
          ((Writer.quoted k).toList ++ [':']) ++ x.text.toList := by
        rw [String.toList_append, String.toList_append]
        rfl
      simp only [memberTexts, joined, hmember, List.append_assoc] at htext
      simp only [memberTexts, joined, hmember, textsOfMembers, List.all_cons, List.all_append,
        tokensOfMembers, List.append_assoc]
      rw [← Bool.true_and (_ && _)]
      refine (yields_separator first hcalm hkey htext).append fun s₁ hreads₁ hlevel₁ => ?_
      have htext₁ := hreads₁.text htext
      have hk := yields_key hreads₁.calm (hlevel₁.1.trans hlevel) hlevel₁.2 htext₁
      rw [← List.append_assoc]
      refine hk.append fun s₂ hreads₂ hlevel₂ => ?_
      have htext₂ := hreads₂.text (by rw [List.append_assoc]; exact htext₁)
      have hlevel₂' : s₂.level = s.level := hlevel₂.trans hlevel₁.1
      have hx := yields_text x hreads₂.calm (hlevel₂'.trans hlevel)
        (closes_joined (.inr rfl) (memberTexts more)) htext₂
      refine hx.append fun s₃ hreads₃ hlevel₃ => ?_
      have hlevel₃' : s₃.level = s.level := hlevel₃.trans hlevel₂'
      have hmore := yields_members more false hreads₃.calm (hlevel₃'.trans hlevel)
        (fun h => nomatch h) (hreads₃.text htext₂)
      exact hmore.weaken fun s₄ h => h.trans hlevel₃'

end

end Values

end ResourceGraph.Json
