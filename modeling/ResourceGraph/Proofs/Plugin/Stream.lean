import ResourceGraph.Proofs.Plugin.Frame

namespace ResourceGraph

section Written

open Json Writer

theorem Json.Writer.le_of_all {chars : List Char} {x : Char}
    (hall : (chars.all fun x => 0x20 ≤ x.toNat) = true) (h : x ∈ chars) : 0x20 ≤ x.toNat :=
  of_decide_eq_true (List.all_eq_true.mp hall x h)

theorem Json.Writer.le_of_mem_escape {c x : Char} (h : x ∈ escape c) : 0x20 ≤ x.toNat := by
  have hhex : ∀ n < 16, 0x20 ≤ (hexDigit n).toNat := by decide +kernel
  unfold escape at h
  split_ifs at h with hquote hslash hback hform hfeed hreturn htab hcontrol
  case pos | pos | pos | pos | pos | pos | pos => exact le_of_all (by decide) h
  · have hlow := hhex (c.toNat % 16) (by omega)
    have hhigh := hhex (c.toNat / 16) (by omega)
    simp only [List.mem_cons, List.not_mem_nil, or_false] at h
    rcases h with rfl | rfl | rfl | rfl | rfl | rfl
    · decide
    · decide
    · decide
    · decide
    · exact hhigh
    · exact hlow
  · rw [List.mem_singleton.mp h]
    omega

theorem Json.Writer.le_of_mem_quoted {s : String} {x : Char} (h : x ∈ (quoted s).toList) :
    0x20 ≤ x.toNat := by
  rw [toList_quoted, List.mem_append, List.mem_cons, List.mem_flatMap] at h
  rcases h with (rfl | ⟨c, -, hx⟩) | hx
  · decide
  · exact le_of_mem_escape hx
  · rw [List.mem_singleton.mp hx]
    decide

theorem Json.mem_joined {first : Bool} {texts : List String} {x : Char}
    (h : x ∈ joined first texts) : x = ',' ∨ ∃ t ∈ texts, x ∈ t.toList := by
  induction texts generalizing first with
  | nil => exact nomatch h
  | cons t rest ih =>
      rw [joined, List.mem_append, List.mem_append] at h
      rcases h with h | h | h
      · cases first with
        | true => exact nomatch h
        | false => exact .inl (List.mem_singleton.mp h)
      · exact .inr ⟨t, List.mem_cons_self, h⟩
      · rcases ih h with hx | ⟨t', ht', hx⟩
        · exact .inl hx
        · exact .inr ⟨t', List.mem_cons_of_mem t ht', hx⟩

mutual

theorem Json.le_of_mem_text (j : Json) (hj : j.Numberless) :
    ∀ x ∈ j.text.toList, 0x20 ≤ x.toNat := by
  intro x hx
  cases j with
  | null => exact le_of_all (by decide) hx
  | bool b => cases b <;> exact le_of_all (by decide) hx
  | number n => exact hj.elim
  | string s =>
      rw [text] at hx
      exact le_of_mem_quoted hx
  | array items =>
      rw [toList_text_array, List.mem_cons, List.mem_append, List.mem_singleton] at hx
      rcases hx with rfl | hx | rfl
      · decide
      · rcases mem_joined hx with rfl | ⟨t, ht, hx⟩
        · decide
        · exact le_of_mem_itemTexts items hj t ht x hx
      · decide
  | object members =>
      rw [toList_text_object, List.mem_cons, List.mem_append, List.mem_singleton] at hx
      rcases hx with rfl | hx | rfl
      · decide
      · rcases mem_joined hx with rfl | ⟨t, ht, hx⟩
        · decide
        · exact le_of_mem_memberTexts members hj t ht x hx
      · decide

theorem Json.le_of_mem_itemTexts (items : List Json) (hitems : NumberlessItems items) :
    ∀ t ∈ itemTexts items, ∀ x ∈ t.toList, 0x20 ≤ x.toNat := by
  match items with
  | [] => exact nofun
  | j :: rest =>
      intro t ht
      rw [itemTexts] at ht
      rcases List.mem_cons.mp ht with rfl | ht
      · exact le_of_mem_text j hitems.1
      · exact le_of_mem_itemTexts rest hitems.2 t ht

theorem Json.le_of_mem_memberTexts (members : List (String × Json))
    (hmembers : NumberlessMembers members) :
    ∀ t ∈ memberTexts members, ∀ x ∈ t.toList, 0x20 ≤ x.toNat := by
  match members with
  | [] => exact nofun
  | (k, j) :: rest =>
      intro t ht x hx
      rw [memberTexts] at ht
      rcases List.mem_cons.mp ht with rfl | ht
      · rw [String.toList_append, String.toList_append, List.mem_append, List.mem_append] at hx
        rcases hx with (hx | hx) | hx
        · exact le_of_mem_quoted hx
        · exact le_of_all (by decide) hx
        · exact le_of_mem_text j hmembers.1 x hx
      · exact le_of_mem_memberTexts rest hmembers.2 t ht x hx

end

end Written

/-- No line ends within a text. -/
structure Unbroken (text : String) : Prop where
  feedless : '\n' ∉ text.toList
  returnless : '\r' ∉ text.toList

theorem Json.unbroken_text {j : Json} (hj : j.Numberless) : Unbroken j.text := by
  constructor
  · intro hmem
    exact absurd (le_of_mem_text j hj _ hmem) (by decide)
  · intro hmem
    exact absurd (le_of_mem_text j hj _ hmem) (by decide)

theorem Call.unbroken_line (c : Call) : Unbroken c.line := Json.unbroken_text c.numberless

theorem Reply.unbroken_line (r : Reply) : Unbroken r.line := Json.unbroken_text r.numberless

theorem Bytes.optionJson_eq_null_iff {bytes : Option Bytes} :
    optionJson bytes = .null ↔ bytes = none := by
  cases bytes with
  | none => exact iff_of_true rfl rfl
  | some bytes => exact iff_of_false nofun nofun

theorem Bytes.optionJson_eq_empty_iff {bytes : Option Bytes} :
    optionJson bytes = .string "" ↔ bytes = some [] := by
  constructor
  · intro h
    have hread : Document.optional? read? (.json 0 (optionJson bytes)) = some bytes :=
      optional?_optionJson bytes
    rw [h] at hread
    exact (Option.some.inj hread).symm
  · rintro rfl
    rfl

namespace Module

theorem withoutReturn_of_unbroken {line : String} (h : Unbroken line) :
    withoutReturn line.toList = line.toList := by
  rw [withoutReturn, if_neg]
  intro hlast
  exact h.returnless (List.mem_of_getLast? (beq_iff_eq.mp hlast))

/-- Texts that are written one after the other, each ended by a line feed, are the lines of what is
written. -/
theorem lines_join {texts : List String} (h : ∀ text ∈ texts, Unbroken text) :
    lines (String.join (texts.map fun text => text ++ "\n")) = texts := by
  have hinput : (String.join (texts.map fun text => text ++ "\n")).toList =
      (texts.map String.toList).flatMap fun part => part ++ ['\n'] := by
    rw [String.toList_join, List.flatMap_map, List.flatMap_map]
    simp only [String.toList_append]
    rfl
  have hsplit : Text.split '\n' ((texts.map String.toList).flatMap fun part => part ++ ['\n']) =
      texts.map String.toList ++ [[]] := by
    rw [← List.append_nil (List.flatMap _ _), Text.split_flatMap]
    · rfl
    intro part hpart
    obtain ⟨text, htext, rfl⟩ := List.mem_map.mp hpart
    exact (h text htext).feedless
  have hline : ∀ text ∈ texts, String.ofList (withoutReturn text.toList) = text := by
    intro text htext
    rw [withoutReturn_of_unbroken (h text htext), String.ofList_toList]
  rw [lines, hinput, hsplit]
  simp only [List.dropLast_concat, List.getLast?_concat, List.map_map]
  exact (List.map_congr_left hline).trans (List.map_id _)

theorem lines_join_map {α : Type} {write : α → String} (hwrite : ∀ x, Unbroken (write x))
    (xs : List α) : lines (String.join (xs.map fun x => write x ++ "\n")) = xs.map write := by
  have htexts : ∀ text ∈ xs.map write, Unbroken text := by
    intro text htext
    obtain ⟨x, -, rfl⟩ := List.mem_map.mp htext
    exact hwrite x
  have hlines := lines_join htexts
  rw [List.map_map, Function.comp_def] at hlines
  exact hlines

theorem mapM_lines_join {α : Type} {read : String → Option α} {write : α → String}
    (hread : ∀ x, read (write x) = some x) (hwrite : ∀ x, Unbroken (write x)) (xs : List α) :
    (lines (String.join (xs.map fun x => write x ++ "\n"))).mapM read = some xs := by
  rw [lines_join_map hwrite]
  apply List.mapM_eq_pure
  rw [List.map_map]
  exact List.map_congr_left fun x _ => hread x

/-- Calls and replies are read back from their lines, whatever names, texts and bytes they hold, and
no line ends within a line. Absent bytes are null, and empty ones are the empty text. Of lines that
are written one after the other each frame is read back, and nothing else. -/
theorem frames_readBack :
    (∀ c : Call, Call.ofLine? c.line = some c ∧ Unbroken c.line) ∧
    (∀ r : Reply, Reply.ofLine? r.line = some r ∧ Unbroken r.line) ∧
    (∀ bytes, (Bytes.optionJson bytes = .null ↔ bytes = none) ∧
      (Bytes.optionJson bytes = .string "" ↔ bytes = some [])) ∧
    (∀ calls : List Call,
      (lines (String.join (calls.map fun c => c.line ++ "\n"))).mapM Call.ofLine? = some calls) ∧
    ∀ replies : List Reply, (lines (output replies)).mapM Reply.ofLine? = some replies := by
  refine ⟨?_, ?_, ?_, ?_, ?_⟩
  · intro c
    exact ⟨c.ofLine?_line, c.unbroken_line⟩
  · intro r
    exact ⟨r.ofLine?_line, r.unbroken_line⟩
  · intro bytes
    exact ⟨Bytes.optionJson_eq_null_iff, Bytes.optionJson_eq_empty_iff⟩
  · exact mapM_lines_join Call.ofLine?_line Call.unbroken_line
  · exact mapM_lines_join Reply.ofLine?_line Reply.unbroken_line

end Module

end ResourceGraph
