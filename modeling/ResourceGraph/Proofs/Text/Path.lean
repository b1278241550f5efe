import ResourceGraph.Proofs.Text.Segments
import ResourceGraph.Text.Path

namespace ResourceGraph.Path

def separator (base : String) : String :=
  if base.isEmpty || endsWithSlash base then "" else "/"

def names (path : String) : List (List Char) := Text.segments '/' path.toList

/-- A path continues a directory with the names of a place below it. -/
def LiesAt (root place path : String) : Prop :=
  ∃ tail, isAbsolute tail = false ∧ names tail = names place ∧ path = root ++ separator root ++ tail

/-- A part that brings no slash of its own to where it is joined. -/
structure Neat (part : String) : Prop where
  named : part ≠ ""
  relative : isAbsolute part = false
  unended : endsWithSlash part = false

theorem isAbsolute_append {a : String} (h : a ≠ "") (b : String) :
    isAbsolute (a ++ b) = isAbsolute a := by
  obtain ⟨c, cs, hlist⟩ := List.exists_cons_of_ne_nil (mt String.toList_eq_nil_iff.mp h)
  simp [isAbsolute, hlist]

theorem endsWithSlash_append (a : String) {b : String} (h : b ≠ "") :
    endsWithSlash (a ++ b) = endsWithSlash b := by
  have hlast := List.getLast?_eq_some_getLast (mt String.toList_eq_nil_iff.mp h)
  simp [endsWithSlash, List.getLast?_append, hlast]

theorem isAbsolute_eq_false_of_not_mem {path : String} (h : '/' ∉ path.toList) :
    isAbsolute path = false := by
  rw [isAbsolute, beq_eq_false_iff_ne]
  exact fun hhead => h (List.mem_of_head? hhead)

theorem exists_eq_append_slash {path : String} (h : endsWithSlash path = true) :
    ∃ before, path.toList = before ++ ['/'] :=
  List.getLast?_eq_some_iff.mp (beq_iff_eq.mp h)

section Separator

variable {base : String}

theorem separator_cases (base : String) :
    (separator base = "" ∧ (base = "" ∨ endsWithSlash base = true)) ∨
      (separator base = "/" ∧ base ≠ "" ∧ endsWithSlash base = false) := by
  unfold separator
  cases hempty : base.isEmpty <;> cases hends : endsWithSlash base <;>
    simp_all [String.isEmpty_iff]

theorem separator_append (a : String) {b : String} (h : b ≠ "") :
    separator (a ++ b) = separator b := by
  simp [separator, endsWithSlash_append a h, h]

theorem Neat.separator_eq {part : String} (h : Neat part) : separator part = "/" := by
  rcases separator_cases part with ⟨-, hempty | hends⟩ | ⟨hslash, -⟩
  · exact absurd hempty h.named
  · exact absurd (hends.symm.trans h.unended) (by decide)
  · exact hslash

theorem separator_append_separator (base : String) : separator (base ++ separator base) = "" := by
  rcases separator_cases base with ⟨hnone, -⟩ | ⟨hslash, -⟩
  · rw [hnone, String.append_empty, hnone]
  · rw [hslash, separator_append base (by decide)]
    rfl

theorem join_of_relative {path : String} (h : isAbsolute path = false) :
    join base path = base ++ separator base ++ path := by
  rw [join, if_neg (by simp [h]), separator]
  split <;> simp

theorem names_append_slash (a b : String) : names (a ++ "/" ++ b) = names a ++ names b := by
  have hlist : (a ++ "/" ++ b).toList = a.toList ++ '/' :: b.toList := by simp
  rw [names, hlist, Text.segments_append_cons]
  rfl

theorem names_intercalate (first : String) (parts : List String) :
    names ("/".intercalate (first :: parts)) = (first :: parts).flatMap names := by
  induction parts generalizing first with
  | nil => rw [String.intercalate_singleton, List.flatMap_cons, List.flatMap_nil, List.append_nil]
  | cons second parts ih =>
      rw [String.intercalate_cons_cons, names_append_slash, ih]
      rfl

theorem names_append_separator (base path : String) :
    names (base ++ separator base ++ path) = names base ++ names path := by
  rcases separator_cases base with ⟨hnone, rfl | hends⟩ | ⟨hslash, -⟩
  · rw [hnone, String.append_empty, String.empty_append]
    rfl
  · obtain ⟨before, hbefore⟩ := exists_eq_append_slash hends
    have hlist : (base ++ path).toList = before ++ '/' :: path.toList := by simp [hbefore]
    rw [hnone, String.append_empty, names, names, hlist, hbefore, Text.segments_append_cons,
      Text.segments_append_cons, Text.segments_nil, List.append_nil]
    rfl
  · rw [hslash, names_append_slash]

theorem join_append {path : String} (base part : String) (h : isAbsolute path = false) :
    join (base ++ separator base ++ part) path = base ++ separator base ++ join part path := by
  rw [join_of_relative h, join_of_relative h]
  by_cases hpart : part = ""
  · subst hpart
    rw [String.append_empty, separator_append_separator]
    simp [separator]
  · rw [separator_append _ hpart]
    simp [String.append_assoc]

end Separator

section Parts

variable {root place : String} {parts : List String}

theorem foldl_join_append (h : ∀ p ∈ parts, isAbsolute p = false) (root part : String) :
    parts.foldl join (root ++ separator root ++ part) =
      root ++ separator root ++ parts.foldl join part := by
  induction parts generalizing part with
  | nil => rfl
  | cons p parts ih =>
      rw [List.foldl_cons, join_append root part (h p List.mem_cons_self),
        ih fun q hq => h q (List.mem_cons_of_mem p hq)]
      rfl

theorem names_foldl_join (h : ∀ p ∈ parts, isAbsolute p = false) (base : String) :
    names (parts.foldl join base) = names base ++ parts.flatMap names := by
  induction parts generalizing base with
  | nil => rw [List.foldl_nil, List.flatMap_nil, List.append_nil]
  | cons p parts ih =>
      rw [List.foldl_cons, ih fun q hq => h q (List.mem_cons_of_mem p hq),
        join_of_relative (h p List.mem_cons_self), names_append_separator, List.flatMap_cons,
        List.append_assoc]

theorem isAbsolute_foldl_join (h : ∀ p ∈ parts, isAbsolute p = false) (base : String) :
    isAbsolute (parts.foldl join base) = isAbsolute base := by
  induction parts generalizing base with
  | nil => rfl
  | cons p parts ih =>
      have hp := h p List.mem_cons_self
      rw [List.foldl_cons, ih (fun q hq => h q (List.mem_cons_of_mem p hq)), join_of_relative hp]
      by_cases hbase : base = ""
      · subst hbase
        exact hp
      · rw [String.append_assoc, isAbsolute_append hbase]

theorem exists_foldl_join_eq (h : ∃ p ∈ parts, isAbsolute p = true) :
    ∃ earlier p later, parts = earlier ++ p :: later ∧ isAbsolute p = true ∧
      (∀ q ∈ later, isAbsolute q = false) ∧
      ∀ root, parts.foldl join root = later.foldl join p := by
  induction parts with
  | nil => simp at h
  | cons first parts ih =>
      by_cases hrest : ∃ p ∈ parts, isAbsolute p = true
      · obtain ⟨earlier, p, later, rfl, hp, hlater, hpath⟩ := ih hrest
        exact ⟨first :: earlier, p, later, rfl, hp, hlater, fun root => hpath (join root first)⟩
      · have hlater : ∀ q ∈ parts, isAbsolute q = false := by simpa using hrest
        have hfirst : isAbsolute first = true := by
          obtain ⟨p, hmem, hp⟩ := h
          rcases List.mem_cons.mp hmem with rfl | hmem
          · exact hp
          · exact absurd ⟨p, hmem, hp⟩ hrest
        refine ⟨[], first, parts, rfl, hfirst, hlater, fun root => ?_⟩
        rw [List.foldl_cons, join_of_isAbsolute root hfirst]

theorem liesAt_foldl_join {first : String} (h : ∀ p ∈ first :: parts, isAbsolute p = false)
    (hplace : names place = (first :: parts).flatMap names) (root : String) :
    LiesAt root place ((first :: parts).foldl join root) := by
  have hparts : ∀ p ∈ parts, isAbsolute p = false :=
    fun p hp => h p (List.mem_cons_of_mem first hp)
  refine ⟨parts.foldl join first, ?_, ?_, ?_⟩
  · rw [isAbsolute_foldl_join hparts]
    exact h first List.mem_cons_self
  · rw [names_foldl_join hparts, hplace, List.flatMap_cons]
  · rw [List.foldl_cons, join_of_relative (h first List.mem_cons_self),
      foldl_join_append hparts]

theorem not_liesAt_foldl_join (h : ∃ p ∈ parts, isAbsolute p = true)
    (hplace : names place = parts.flatMap names) (hroot : names root = [] → root = "") :
    ¬ LiesAt root place (parts.foldl join root) := by
  obtain ⟨earlier, p, later, rfl, hp, hlater, hpath⟩ := exists_foldl_join_eq h
  rintro ⟨tail, htail, hnames, heq⟩
  rw [hpath root] at heq
  have hcount := congrArg (fun path => (names path).length) heq
  simp only [names_foldl_join hlater, names_append_separator, hnames, hplace,
    List.flatMap_append, List.flatMap_cons, List.length_append] at hcount
  have hempty : root = "" := hroot (List.eq_nil_of_length_eq_zero (by omega))
  have habsolute := isAbsolute_foldl_join hlater p
  rw [heq, hempty, hp] at habsolute
  exact absurd (htail.symm.trans habsolute) (by decide)

/-- Joined parts stay in a directory that has a name exactly when none of them is absolute. -/
theorem liesAt_foldl_join_iff (hne : parts ≠ []) (hplace : names place = parts.flatMap names)
    (hroot : names root = [] → root = "") :
    LiesAt root place (parts.foldl join root) ↔ ∀ p ∈ parts, isAbsolute p = false := by
  obtain ⟨first, parts, rfl⟩ := List.exists_cons_of_ne_nil hne
  constructor
  · intro hlies p hp
    refine Bool.eq_false_iff.mpr fun habsolute => ?_
    exact not_liesAt_foldl_join ⟨p, hp, habsolute⟩ hplace hroot hlies
  · exact fun hparts => liesAt_foldl_join hparts hplace root

end Parts

section Texts

variable {root first : String} {parts : List String}

theorem length_separator_le (base : String) : (separator base).length ≤ 1 := by
  rcases separator_cases base with ⟨hnone, -⟩ | ⟨hslash, -⟩
  · rw [hnone]
    exact Nat.zero_le 1
  · rw [hslash]
    exact Nat.le_refl 1

theorem length_join_le (base path : String) :
    (join base path).length ≤ base.length + (separator base).length + path.length := by
  cases h : isAbsolute path with
  | true =>
      rw [join_of_isAbsolute base h]
      omega
  | false => simp [join_of_relative h]

theorem length_intercalate (first second : String) (parts : List String) :
    ("/".intercalate (first :: second :: parts)).length =
      first.length + 1 + ("/".intercalate (second :: parts)).length := by
  rw [String.intercalate_cons_cons, String.length_append, String.length_append]
  rfl

theorem length_foldl_join_le (first : String) (parts : List String) (base : String) :
    ((first :: parts).foldl join base).length ≤
      base.length + (separator base).length + ("/".intercalate (first :: parts)).length := by
  induction parts generalizing first base with
  | nil => simpa using length_join_le base first
  | cons second parts ih =>
      have hfirst := length_join_le base first
      have hslash := length_separator_le (join base first)
      have hrest := ih second (join base first)
      rw [length_intercalate, List.foldl_cons]
      omega

/-- Parts that bring no slash of their own, except that the last may end in one. -/
def Laid : List String → Prop
  | [] => True
  | [part] => isAbsolute part = false
  | part :: next :: rest => Neat part ∧ Laid (next :: rest)

theorem foldl_join_of_laid (hroot : root ≠ "") (h : Laid (first :: parts)) :
    (first :: parts).foldl join root =
      root ++ separator root ++ "/".intercalate (first :: parts) := by
  induction parts generalizing root first with
  | nil =>
      rw [String.intercalate_singleton]
      exact join_of_relative h
  | cons second parts ih =>
      obtain ⟨hfirst, hrest⟩ := h
      have hne : root ++ separator root ++ first ≠ "" := by
        simp [hfirst.named]
      have hslash : separator (root ++ separator root ++ first) = "/" := by
        rw [separator_append _ hfirst.named, hfirst.separator_eq]
      rw [List.foldl_cons, join_of_relative hfirst.relative, ih hne hrest, hslash,
        String.intercalate_cons_cons]
      simp only [String.append_assoc]

theorem laid_of_length_le (hroot : root ≠ "")
    (h : root.length + (separator root).length + ("/".intercalate (first :: parts)).length ≤
      ((first :: parts).foldl join root).length) : Laid (first :: parts) := by
  have hpositive : 0 < root.length := by
    rw [Nat.pos_iff_ne_zero, Ne, String.length_eq_zero_iff]
    exact hroot
  induction parts generalizing root first with
  | nil =>
      rw [String.intercalate_singleton, List.foldl_cons, List.foldl_nil] at h
      refine Bool.eq_false_iff.mpr fun habsolute => ?_
      rw [join_of_isAbsolute root habsolute] at h
      omega
  | cons second parts ih =>
      have hbound := length_foldl_join_le second parts (join root first)
      have hslash := length_separator_le (join root first)
      have hjoin := length_join_le root first
      rw [length_intercalate, List.foldl_cons] at h
      have hrelative : isAbsolute first = false := by
        refine Bool.eq_false_iff.mpr fun habsolute => ?_
        rw [join_of_isAbsolute root habsolute] at h hbound hslash
        omega
      have hnonempty : join root first ≠ "" := by
        rw [Ne, ← String.length_eq_zero_iff]
        omega
      have hrest : Laid (second :: parts) := ih hnonempty (by omega) (by omega)
      refine ⟨?_, hrest⟩
      -- Without a slash at this place the path would be too short.
      rcases separator_cases (join root first) with ⟨hnone, -⟩ | ⟨-, -, hends⟩
      · rw [hnone] at hbound
        have hzero : "".length = 0 := rfl
        omega
      · rw [join_of_relative hrelative] at hends h hbound
        have hnamed : first ≠ "" := by
          rintro rfl
          have hzero : "".length = 0 := rfl
          rw [String.append_empty, separator_append_separator, String.length_append] at hbound
          rw [String.append_empty] at h
          omega
        exact ⟨hnamed, hrelative, (endsWithSlash_append _ hnamed).symm.trans hends⟩

theorem foldl_join_eq_iff (hroot : root ≠ "") :
    (first :: parts).foldl join root =
        root ++ separator root ++ "/".intercalate (first :: parts) ↔
      Laid (first :: parts) := by
  refine ⟨fun heq => laid_of_length_le hroot ?_, foldl_join_of_laid hroot⟩
  exact Nat.le_of_eq (by rw [heq, String.length_append, String.length_append])

end Texts

end ResourceGraph.Path
