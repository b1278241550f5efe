import ResourceGraph.Json.Reader
import ResourceGraph.Proofs.Json.Texts

namespace ResourceGraph.Json

open Writer

section Texts

theorem Sign.chars?_unit {code : Nat} (hhigh : isHigh code = false) (hlow : isLow code = false)
    (signs : List Sign) : chars? (.unit code :: signs) = (chars? signs).map (.ofNat code :: ·) := by
  match signs with
  | .unit _ :: _ => rw [chars?, hhigh, hlow]; rfl
  | .char _ :: _ | [] => simp [chars?, hhigh, hlow]

theorem hexValue?_hexDigit : ∀ n < 16, Reader.hexValue? (hexDigit n) = some n := by
  decide +kernel

theorem unit?_hexDigits {n : Nat} (h : n < 0x20) (rest : List Char) :
    Reader.unit? ('0' :: '0' :: hexDigit (n / 16) :: hexDigit (n % 16) :: rest) =
      some (n, rest) := by
  have hzero : Reader.hexValue? '0' = some 0 := rfl
  have hvalue : ((0 * 16 + 0) * 16 + n / 16) * 16 + n % 16 = n := by omega
  simp only [Reader.unit?, hzero, hexValue?_hexDigit (n / 16) (by omega),
    hexValue?_hexDigit (n % 16) (by omega), Option.bind_eq_bind, Option.bind_some, hvalue]
  rfl

theorem signs_backslash {text rest : List Char} {sign : Sign}
    (h : Reader.escape? text = some (sign, rest)) (fuel : Nat) :
    Reader.signs (fuel + 1) ('\\' :: text) =
      (Reader.signs fuel rest).map fun (signs, rest) => (sign :: signs, rest) := by
  simp only [Reader.signs, h, Option.bind_eq_bind, Option.bind_some]
  cases Reader.signs fuel rest <;> rfl

theorem exists_sign (c : Char) :
    ∃ sign, (∀ fuel rest, Reader.signs (fuel + 1) (escape c ++ rest) =
        (Reader.signs fuel rest).map fun (signs, rest) => (sign :: signs, rest)) ∧
      ∀ signs, Sign.chars? (sign :: signs) = (Sign.chars? signs).map (c :: ·) := by
  unfold escape
  split_ifs with hquote hslash hback hform hfeed hreturn htab hcontrol
  case pos | pos | pos | pos | pos | pos | pos =>
    subst c
    exact ⟨.char _, fun fuel rest => signs_backslash rfl fuel, fun _ => rfl⟩
  · refine ⟨.unit c.toNat, fun fuel rest => signs_backslash ?_ fuel, fun signs => ?_⟩
    · exact congrArg (Option.map _) (unit?_hexDigits hcontrol rest)
    · have hhigh : Sign.isHigh c.toNat = false := by simp [Sign.isHigh]; omega
      have hlow : Sign.isLow c.toNat = false := by simp [Sign.isLow]; omega
      rw [Sign.chars?_unit hhigh hlow, Char.ofNat_toNat]
  · refine ⟨.char c, fun fuel rest => ?_, fun _ => rfl⟩
    rw [List.singleton_append, Reader.signs, if_neg hcontrol]
    · cases Reader.signs fuel rest <;> rfl
    · exact hquote
    · exact hslash

theorem exists_signs (s : List Char) {fuel : Nat} (h : s.length < fuel) (rest : List Char) :
    ∃ signs, Reader.signs fuel (s.flatMap escape ++ '"' :: rest) = some (signs, rest) ∧
      Sign.chars? signs = some s := by
  induction s generalizing fuel with
  | nil =>
      obtain ⟨fuel, rfl⟩ := Nat.exists_eq_add_one.2 h
      exact ⟨[], rfl, rfl⟩
  | cons c s ih =>
      obtain ⟨fuel, rfl⟩ := Nat.exists_eq_add_one.2 (Nat.zero_lt_of_lt h)
      obtain ⟨sign, hread, hchars⟩ := exists_sign c
      obtain ⟨signs, hsigns, hs⟩ := ih (Nat.lt_of_succ_lt_succ h)
      refine ⟨sign :: signs, ?_, ?_⟩
      · rw [List.flatMap_cons, List.append_assoc, hread, hsigns]
        rfl
      · rw [hchars, hs]
        rfl

theorem escape_ne_nil (c : Char) : escape c ≠ [] := by
  unfold escape
  split_ifs <;> exact List.cons_ne_nil _ _

theorem length_le_escaped (s : List Char) : s.length ≤ (s.flatMap escape).length := by
  induction s with
  | nil => exact Nat.le_refl _
  | cons c s ih =>
      have hc := List.length_pos_of_ne_nil (escape_ne_nil c)
      rw [List.flatMap_cons, List.length_append, List.length_cons]
      omega

theorem exists_string (s : String) (rest : List Char) :
    ∃ signs, Reader.string (s.toList.flatMap escape ++ '"' :: rest) = some (signs, rest) ∧
      Sign.text? signs = some s := by
  have hfuel : s.toList.length < (s.toList.flatMap escape ++ '"' :: rest).length + 1 := by
    have hle := length_le_escaped s.toList
    rw [List.length_append]
    omega
  obtain ⟨signs, hsigns, hs⟩ := exists_signs s.toList hfuel rest
  exact ⟨signs, hsigns, by rw [Sign.text?, hs, Option.map_some, String.ofList_toList]⟩

end Texts

section Values

mutual

def Numberless : Json → Prop
  | .number _ => False
  | .array items => NumberlessItems items
  | .object members => NumberlessMembers members
  | _ => True

def NumberlessItems : List Json → Prop
  | [] => True
  | x :: rest => x.Numberless ∧ NumberlessItems rest

def NumberlessMembers : List (String × Json) → Prop
  | [] => True
  | (_, x) :: rest => x.Numberless ∧ NumberlessMembers rest

end

mutual

/-- What a reader sees of a value: null stands for what it ignores. -/
def view : Form → Json → Json
  | .ignored, _ => .null
  | form, .array items => .array (viewItems form items)
  | form, .object members => .object (viewMembers form members)
  | _, other => other

def viewItems : Form → List Json → List Json
  | _, [] => []
  | form, x :: rest => x.view form.item :: viewItems form.afterItem rest

def viewMembers : Form → List (String × Json) → List (String × Json)
  | _, [] => []
  | form, (k, x) :: rest => (k, x.view (form.member k)) :: viewMembers form rest

end

/-- A written value denotes, for every reader, what the reader sees of a value. -/
def Written.Denotes (w : Written) (j : Json) : Prop := ∀ form, w.value? form = some (j.view form)

theorem denotes_string {signs : List Sign} {s : String} (h : Sign.text? signs = some s) :
    Written.Denotes (.string signs) (.string s) := by
  intro form
  cases form with
  | ignored => rfl
  | whole | parts _ _ => exact congrArg (Option.map Json.string) h

theorem denotes_array {ws : List Written} {items : List Json}
    (h : ∀ form, Written.items? form ws = some (viewItems form items)) :
    Written.Denotes (.array ws) (.array items) := by
  intro form
  cases form with
  | ignored => rfl
  | whole | parts _ _ => exact congrArg (Option.map Json.array) (h _)

theorem denotes_object {ws : List (List Sign × Written)} {members : List (String × Json)}
    (h : ∀ form, Written.members? form ws = some (viewMembers form members)) :
    Written.Denotes (.object ws) (.object members) := by
  intro form
  cases form with
  | ignored => rfl
  | whole | parts _ _ => exact congrArg (Option.map Json.object) (h _)

theorem exists_start {j : Json} (hj : j.Numberless) :
    ∃ c t, j.text.toList = c :: t ∧ Reader.isBlank c = false ∧ c ≠ ']' := by
  cases j with
  | null => exact ⟨'n', _, rfl, rfl, by decide⟩
  | bool b => cases b <;> exact ⟨_, _, rfl, rfl, by decide⟩
  | number n => exact hj.elim
  | string s => exact ⟨'"', _, Writer.toList_quoted s, rfl, by decide⟩
  | array items => exact ⟨'[', _, toList_text_array items, rfl, by decide⟩
  | object members => exact ⟨'{', _, toList_text_object members, rfl, by decide⟩

theorem value_bracket {x : Json} (hx : x.Numberless) (fuel : Nat) (rest : List Char) :
    Reader.value (fuel + 1) ('[' :: (x.text.toList ++ rest)) =
      (Reader.items fuel (x.text.toList ++ rest)).map fun (ws, rest) => (.array ws, rest) := by
  obtain ⟨c, t, htext, hblank, hclose⟩ := exists_start hx
  have hskip : Reader.skipBlank (x.text.toList ++ rest) = c :: (t ++ rest) := by
    rw [htext, Reader.skipBlank, List.cons_append, List.dropWhile_cons_of_neg (by simp [hblank])]
  have hbracket : ∀ text, Reader.skipBlank ('[' :: text) = '[' :: text := fun _ => rfl
  simp only [Reader.value, hbracket, hskip]
  split
  · next h => exact absurd (List.cons.inj h).1 hclose
  · rfl

theorem joined_true_cons (x : String) (rest : List String) :
    joined true (x :: rest) = x.toList ++ joined false rest := rfl

theorem joined_false_cons (x : String) (rest : List String) :
    joined false (x :: rest) = ',' :: joined true (x :: rest) := rfl

theorem items_of_last {fuel : Nat} {text rest : List Char} {w : Written}
    (h : Reader.value fuel text = some (w, ']' :: rest)) :
    Reader.items (fuel + 1) text = some ([w], rest) := by
  rw [Reader.items, h]
  rfl

theorem items_of_comma {fuel : Nat} {text rest : List Char} {w : Written}
    (h : Reader.value fuel text = some (w, ',' :: rest)) :
    Reader.items (fuel + 1) text =
      (Reader.items fuel rest).map fun (ws, rest) => (w :: ws, rest) := by
  have hskip : Reader.skipBlank (',' :: rest) = ',' :: rest := rfl
  simp only [Reader.items, h, Option.bind_eq_bind, Option.bind_some, hskip]
  cases Reader.items fuel rest <;> rfl

theorem exists_name (k : String) {fuel : Nat} {text : List Char} {w : Written} {c : Char}
    {rest : List Char} (h : Reader.value fuel text = some (w, c :: rest)) :
    ∃ signs, Sign.text? signs = some k ∧
      (c = '}' → Reader.members (fuel + 1) ((quoted k).toList ++ ':' :: text) =
        some ([(signs, w)], rest)) ∧
      (c = ',' → Reader.members (fuel + 1) ((quoted k).toList ++ ':' :: text) =
        (Reader.members fuel rest).map fun (ws, rest) => ((signs, w) :: ws, rest)) := by
  obtain ⟨signs, hsigns, hk⟩ := exists_string k (':' :: text)
  have hquote : ∀ text, Reader.afterWord? ['"'] (Reader.skipBlank ('"' :: text)) = some text :=
    fun _ => rfl
  have hcolon : Reader.afterWord? [':'] (Reader.skipBlank (':' :: text)) = some text := rfl
  have hcomma : Reader.skipBlank (',' :: rest) = ',' :: rest := rfl
  rw [Writer.toList_quoted, List.append_assoc, List.cons_append, List.singleton_append,
    Reader.members, hquote]
  simp only [Option.bind_eq_bind, Option.bind_some, hsigns, hcolon, h]
  refine ⟨signs, hk, ?_, ?_⟩
  · rintro rfl
    rfl
  · rintro rfl
    simp only [hcomma]
    cases Reader.members fuel rest <;> rfl

theorem toList_memberTexts (k : String) (x : Json) (rest : List (String × Json)) :
    joined true (memberTexts ((k, x) :: rest)) =
      (quoted k).toList ++ ':' :: (x.text.toList ++ joined false (memberTexts rest)) := by
  rw [memberTexts, joined_true_cons]
  simp

mutual

theorem exists_value (j : Json) (hj : j.Numberless) {fuel : Nat}
    (hfuel : j.text.toList.length < fuel) (rest : List Char) :
    ∃ w, Reader.value fuel (j.text.toList ++ rest) = some (w, rest) ∧ w.Denotes j := by
  obtain ⟨fuel, rfl⟩ := Nat.exists_eq_add_one.2 (Nat.zero_lt_of_lt hfuel)
  cases j with
  | null => exact ⟨.null, rfl, fun form => by cases form <;> rfl⟩
  | bool b => cases b <;> exact ⟨.bool _, rfl, fun form => by cases form <;> rfl⟩
  | number n => exact hj.elim
  | string s =>
      obtain ⟨signs, hsigns, hs⟩ := exists_string s rest
      refine ⟨.string signs, ?_, denotes_string hs⟩
      rw [text, Writer.toList_quoted, List.append_assoc, List.cons_append, List.singleton_append]
      exact congrArg (Option.map _) hsigns
  | array items =>
      rw [toList_text_array] at hfuel ⊢
      -- Empty brackets are closed at once, without a first item.
      rcases eq_or_ne items [] with rfl | hne
      · exact ⟨.array [], rfl, fun form => by cases form <;> rfl⟩
      obtain ⟨ws, hread, hws⟩ := exists_items items hne hj (by simpa using hfuel) rest
      refine ⟨.array ws, ?_, denotes_array hws⟩
      obtain ⟨x, xs, rfl⟩ := List.exists_cons_of_ne_nil hne
      rw [itemTexts, joined_true_cons, List.append_assoc] at hread
      rw [itemTexts, joined_true_cons, List.cons_append, List.append_assoc, List.append_assoc,
        List.singleton_append, value_bracket hj.1, hread]
      rfl
  | object members =>
      rw [toList_text_object] at hfuel ⊢
      rcases eq_or_ne members [] with rfl | hne
      · exact ⟨.object [], rfl, fun form => by cases form <;> rfl⟩
      obtain ⟨ws, hread, hws⟩ := exists_members members hne hj (by simpa using hfuel) rest
      refine ⟨.object ws, ?_, denotes_object hws⟩
      obtain ⟨⟨k, x⟩, xs, rfl⟩ := List.exists_cons_of_ne_nil hne
      rw [toList_memberTexts, Writer.toList_quoted] at hread ⊢
      rw [List.cons_append, List.append_assoc, List.singleton_append]
      exact congrArg (Option.map _) hread

theorem exists_items (items : List Json) (hne : items ≠ []) (hitems : NumberlessItems items)
    {fuel : Nat} (hfuel : (joined true (itemTexts items)).length + 1 < fuel) (rest : List Char) :
    ∃ ws, Reader.items fuel (joined true (itemTexts items) ++ ']' :: rest) = some (ws, rest) ∧
      ∀ form, Written.items? form ws = some (viewItems form items) := by
  obtain ⟨fuel, rfl⟩ := Nat.exists_eq_add_one.2 (Nat.zero_lt_of_lt hfuel)
  cases items with
  | nil => exact absurd rfl hne
  | cons x xs =>
      rw [itemTexts, joined_true_cons] at hfuel ⊢
      rw [List.length_append] at hfuel
      rw [List.append_assoc]
      have hx : x.text.toList.length < fuel := by omega
      obtain ⟨w, hw, hdenotes⟩ := exists_value x hitems.1 hx
        (joined false (itemTexts xs) ++ ']' :: rest)
      rcases eq_or_ne xs [] with rfl | hmore
      · refine ⟨[w], items_of_last hw, fun form => ?_⟩
        rw [Written.items?, hdenotes]
        rfl
      have hcomma : joined false (itemTexts xs) = ',' :: joined true (itemTexts xs) := by
        obtain ⟨y, ys, rfl⟩ := List.exists_cons_of_ne_nil hmore
        rw [itemTexts, joined_false_cons]
      rw [hcomma, List.length_cons] at hfuel
      have hxs : (joined true (itemTexts xs)).length + 1 < fuel := by omega
      obtain ⟨ws, hread, hws⟩ := exists_items xs hmore hitems.2 hxs rest
      rw [hcomma, List.cons_append] at hw ⊢
      refine ⟨w :: ws, ?_, fun form => ?_⟩
      · rw [items_of_comma hw, hread]
        rfl
      · rw [Written.items?, hdenotes, hws]
        rfl

theorem exists_members (members : List (String × Json)) (hne : members ≠ [])
    (hmembers : NumberlessMembers members) {fuel : Nat}
    (hfuel : (joined true (memberTexts members)).length + 1 < fuel) (rest : List Char) :
    ∃ ws, Reader.members fuel (joined true (memberTexts members) ++ '}' :: rest) =
        some (ws, rest) ∧
      ∀ form, Written.members? form ws = some (viewMembers form members) := by
  obtain ⟨fuel, rfl⟩ := Nat.exists_eq_add_one.2 (Nat.zero_lt_of_lt hfuel)
  cases members with
  | nil => exact absurd rfl hne
  | cons e xs =>
      obtain ⟨k, x⟩ := e
      rw [toList_memberTexts] at hfuel ⊢
      rw [List.length_append, List.length_cons, List.length_append] at hfuel
      have hx : x.text.toList.length < fuel := by omega
      obtain ⟨w, hw, hdenotes⟩ := exists_value x hmembers.1 hx
        (joined false (memberTexts xs) ++ '}' :: rest)
      rw [List.append_assoc, List.cons_append, List.append_assoc]
      rcases eq_or_ne xs [] with rfl | hmore
      · obtain ⟨signs, hsigns, hlast, -⟩ := exists_name k hw
        refine ⟨[(signs, w)], hlast rfl, fun form => ?_⟩
        simp only [Written.members?, hsigns, Option.bind_eq_bind, Option.bind_some, hdenotes _]
        rfl
      have hcomma : joined false (memberTexts xs) = ',' :: joined true (memberTexts xs) := by
        obtain ⟨⟨l, y⟩, ys, rfl⟩ := List.exists_cons_of_ne_nil hmore
        rw [memberTexts, joined_false_cons]
      rw [hcomma, List.length_cons] at hfuel
      have hxs : (joined true (memberTexts xs)).length + 1 < fuel := by omega
      obtain ⟨ws, hread, hws⟩ := exists_members xs hmore hmembers.2 hxs rest
      rw [hcomma, List.cons_append] at hw ⊢
      obtain ⟨signs, hsigns, -, hnext⟩ := exists_name k hw
      refine ⟨(signs, w) :: ws, ?_, fun form => ?_⟩
      · rw [hnext rfl, hread]
        rfl
      · simp only [Written.members?, hsigns, Option.bind_eq_bind, Option.bind_some, hdenotes _, hws]
        rfl

end

/-- A value without numbers is read back as far as its reader looks at it. -/
theorem readAs?_text {j : Json} (hj : j.Numberless) (form : Form) :
    readAs? form j.text = some (j.view form) := by
  have hfuel : j.text.toList.length < j.text.length + 1 := Nat.lt_succ_of_le (Nat.le_of_eq rfl)
  obtain ⟨w, hw, hdenotes⟩ := exists_value j hj hfuel []
  rw [List.append_nil] at hw
  rw [readAs?, Written.parse?, hw]
  exact hdenotes form

mutual

theorem view_of_whole {form : Form} (hfields : form.fields = []) (hothers : form.others = .whole)
    (j : Json) : j.view form = j := by
  cases j with
  | array items =>
      cases form with
      | ignored => exact nomatch hothers
      | whole | parts _ _ => exact congrArg array (viewItems_of_whole hfields hothers items)
  | object members =>
      cases form with
      | ignored => exact nomatch hothers
      | whole | parts _ _ => exact congrArg object (viewMembers_of_whole hfields hothers members)
  | _ =>
      cases form with
      | ignored => exact nomatch hothers
      | whole | parts _ _ => rfl

theorem viewItems_of_whole {form : Form} (hfields : form.fields = [])
    (hothers : form.others = .whole) (items : List Json) : viewItems form items = items := by
  match items with
  | [] => rfl
  | x :: rest =>
      have hitem : form.item = .whole := by rw [Form.item, hfields]; exact hothers
      have hafter : form.afterItem = .parts [] .whole := by
        rw [Form.afterItem, hfields, hothers]
        rfl
      rw [viewItems, hitem, hafter, view_of_whole rfl rfl x, viewItems_of_whole rfl rfl rest]

theorem viewMembers_of_whole {form : Form} (hfields : form.fields = [])
    (hothers : form.others = .whole) (members : List (String × Json)) :
    viewMembers form members = members := by
  match members with
  | [] => rfl
  | (k, x) :: rest =>
      have hmember : form.member k = .whole := by rw [Form.member, hfields]; exact hothers
      rw [viewMembers, hmember, view_of_whole rfl rfl x, viewMembers_of_whole hfields hothers rest]

end

@[simp] theorem view_whole (j : Json) : j.view .whole = j := view_of_whole rfl rfl j

end Values

end ResourceGraph.Json
