import ResourceGraph.Proofs.Json.Location
import ResourceGraph.Proofs.Json.Place

/-!
Values that are added where parents may be missing. The walk of the tokens before the last through
the values that exist decides whether a value can be added; what is created on the way holds the
value and nothing else, and all else stays.
-/

namespace ResourceGraph

namespace Pointer

/-- Both readings of indices agree on the tokens, and `-` stands at most at the end. -/
structure Unambiguous (path : Pointer) : Prop where
  index_of_loose : ∀ token ∈ path, ∀ i, looseIndex? token = some i → index? token = some i
  dash_last : ∀ token ∈ path.dropLast, token ≠ "-"

theorem unambiguous_nil : Unambiguous [] := ⟨nofun, nofun⟩

theorem unambiguous_cons_iff {token : String} {rest : Pointer} :
    Unambiguous (token :: rest) ↔
      (∀ i, looseIndex? token = some i → index? token = some i) ∧ (rest ≠ [] → token ≠ "-") ∧
        Unambiguous rest := by
  constructor
  · intro h
    refine ⟨h.index_of_loose token List.mem_cons_self, fun hrest => h.dash_last token ?_,
      fun t ht => h.index_of_loose t (List.mem_cons_of_mem token ht), fun t ht => h.dash_last t ?_⟩
    · rw [List.dropLast_cons_of_ne_nil hrest]
      exact List.mem_cons_self
    · rw [List.dropLast_cons_of_ne_nil (List.ne_nil_of_mem (List.mem_of_mem_dropLast ht))]
      exact List.mem_cons_of_mem token ht
  · rintro ⟨hindex, hdash, hrest⟩
    refine ⟨List.forall_mem_cons.mpr ⟨hindex, hrest.index_of_loose⟩, fun t ht => ?_⟩
    cases rest with
    | nil => exact nomatch ht
    | cons next rest =>
        rw [List.dropLast_cons_of_ne_nil (List.cons_ne_nil next rest)] at ht
        rcases List.mem_cons.mp ht with rfl | ht
        · exact hdash (List.cons_ne_nil next rest)
        · exact hrest.dash_last t ht

end Pointer

namespace Json

/-- The container that holds one child under a token, in an array behind as many nulls as the token
counts. -/
def holding (token : String) (child : Json) : Json :=
  if token = "-" then .array [child]
  else
    match Pointer.index? token with
    | some i => .array (List.replicate i .null ++ [child])
    | none => .object [(token, child)]

/-- Where a token puts a new item in an array. -/
def slot? (token : String) (items : List Json) : Option Nat :=
  if token = "-" then some items.length else Pointer.index? token

def IsScalar : Json → Prop
  | .bool _ | .number _ | .string _ => True
  | .null | .array _ | .object _ => False

/-- Add a value; parents that are missing or null are created first. -/
def grow? (value : Json) : Pointer → Json → Option Json
  | [], _ => some value
  | t :: rest, x =>
      addAt? value (t :: rest)
        (if x = .null then withParents true (t :: rest) (containerFor t)
        else withParents false (t :: rest) x)

section Creation

variable {value out child : Json} {token : String} {rest : Pointer} {i : Nat}

theorem index?_dash : Pointer.index? "-" = none := by decide

theorem looseIndex?_dash : Pointer.looseIndex? "-" = none := by decide

theorem containerFor_of_loose (h : token = "-" ∨ Pointer.looseIndex? token = some i) :
    containerFor token = .array [] := by
  rw [containerFor, if_pos]
  rcases h with h | h <;> simp [h]

theorem containerFor_of_name (hdash : token ≠ "-") (h : Pointer.looseIndex? token = none) :
    containerFor token = .object [] := by
  rw [containerFor, if_neg]
  simp [hdash, h]

theorem index?_eq_none_of_loose (h : Pointer.looseIndex? token = none) :
    Pointer.index? token = none := by
  cases hi : Pointer.index? token with
  | none => rfl
  | some i => exact absurd (looseIndex?_of_index? hi) (by simp [h])

theorem insertChild?_array_eq_some_iff {items : List Json} :
    insertChild? token value (.array items) = some out ↔
      ∃ i, slot? token items = some i ∧ i ≤ items.length ∧
        out = .array (items.insertIdx i value) := by
  rw [insertChild?, slot?]
  split
  · simp [eq_comm]
  · cases Pointer.index? token with
    | none => simp
    | some i => simp [eq_comm]

theorem insertChild?_withParents_containerFor
    (h : ∀ i, Pointer.looseIndex? token = some i → Pointer.index? token = some i) :
    insertChild? token value (withParents true [token] (containerFor token)) =
      some (holding token value) := by
  by_cases hdash : token = "-"
  · subst hdash
    rw [containerFor_of_loose (.inl rfl) (i := 0)]
    simp [withParents, looseIndex?_dash, insertChild?, holding]
  · cases hloose : Pointer.looseIndex? token with
    | some i =>
        have hend : (List.replicate i null).insertIdx i value = List.replicate i null ++ [value] := by
          simpa using List.insertIdx_length_self (l := List.replicate i null) (x := value)
        rw [containerFor_of_loose (.inr hloose)]
        simp [withParents, hloose, insertChild?, hdash, h i hloose, padTo, holding, hend]
    | none =>
        rw [containerFor_of_name hdash hloose]
        simp [withParents, insertChild?, hdash, index?_eq_none_of_loose hloose, holding, Dict.insert]

theorem withParents_containerFor {next : String} (hdash : token ≠ "-")
    (h : ∀ i, Pointer.looseIndex? token = some i → Pointer.index? token = some i) :
    withParents true (token :: next :: rest) (containerFor token) =
      holding token (withParents true (next :: rest) (containerFor next)) := by
  cases hloose : Pointer.looseIndex? token with
  | some i =>
      rw [containerFor_of_loose (.inr hloose), withParents, holding, if_neg hdash, h i hloose]
      simp [position?, hdash, hloose, padTo, List.replicate_succ']
  | none =>
      rw [containerFor_of_name hdash hloose, withParents, holding, if_neg hdash,
        index?_eq_none_of_loose hloose]
      simp [Dict.insert]

theorem child?_holding (hdash : token ≠ "-") : (holding token child).child? token = some child := by
  rw [holding, if_neg hdash]
  cases h : Pointer.index? token with
  | some i => simp [child?, h]
  | none => simp [child?, Dict.get?_cons]

theorem descend?_holding {f : Json → Option Json} (hdash : token ≠ "-") :
    (holding token child).descend? token f = (f child).map (holding token) := by
  have hholding := fun x => holding.eq_1 token x
  cases h : Pointer.index? token with
  | some i =>
      simp only [hdash, if_false, h] at hholding
      cases hf : f child <;> simp [hholding, descend?, h, hf]
  | none =>
      simp only [hdash, if_false, h] at hholding
      cases hf : f child <;> simp [hholding, descend?, Dict.get?_cons, hf, Dict.insert]

theorem addAt?_withParents_containerFor (h : Pointer.Unambiguous (token :: rest)) :
    addAt? value (token :: rest) (withParents true (token :: rest) (containerFor token)) =
      some ((token :: rest).foldr holding value) := by
  induction rest generalizing token with
  | nil =>
      rw [addAt?]
      exact insertChild?_withParents_containerFor (Pointer.unambiguous_cons_iff.mp h).1
  | cons next rest ih =>
      obtain ⟨hindex, hdash, hrest⟩ := Pointer.unambiguous_cons_iff.mp h
      have hdash := hdash (List.cons_ne_nil next rest)
      rw [withParents_containerFor hdash hindex, addAt?, descend?_holding hdash, ih hrest]
      rfl

theorem exists_withParents_array (fresh : Bool) (token next : String) (rest : Pointer)
    (items : List Json) :
    ∃ items', withParents fresh (token :: next :: rest) (.array items) = .array items' := by
  rw [withParents]
  cases position? token items with
  | none => exact ⟨items, rfl⟩
  | some i =>
      simp only
      split <;> exact ⟨_, rfl⟩

/-- Nothing can be added in a container that was created by the one reading of an index only, or
behind a `-` that is not the last token. -/
theorem unambiguous_of_addAt?
    (h : addAt? value (token :: rest) (withParents true (token :: rest) (containerFor token)) =
      some out) : Pointer.Unambiguous (token :: rest) := by
  induction rest generalizing token out with
  | nil =>
      rw [Pointer.unambiguous_cons_iff]
      refine ⟨fun i hloose => ?_, fun hne => absurd rfl hne, Pointer.unambiguous_nil⟩
      have hdash : token ≠ "-" := by
        rintro rfl
        exact nomatch looseIndex?_dash.symm.trans hloose
      rw [containerFor_of_loose (.inr hloose), addAt?, withParents] at h
      simp only [if_true, hloose, insertChild?_array_eq_some_iff, slot?, if_neg hdash] at h
      obtain ⟨j, hj, -⟩ := h
      rw [hj, ← looseIndex?_of_index? hj, hloose]
  | cons next rest ih =>
      -- A token that made an array must be an index in the strict sense to be followed again.
      have hstrict : ∀ i, token = "-" ∨ Pointer.looseIndex? token = some i →
          ∃ j, Pointer.index? token = some j := by
        intro i hi
        obtain ⟨items, hitems⟩ := exists_withParents_array true token next rest []
        rw [containerFor_of_loose hi, hitems, addAt?] at h
        obtain ⟨j, hj, -⟩ := Option.bind_eq_some_iff.mp h
        exact ⟨j, hj⟩
      have hdash : token ≠ "-" := by
        rintro rfl
        obtain ⟨j, hj⟩ := hstrict 0 (.inl rfl)
        exact nomatch index?_dash.symm.trans hj
      have hindex : ∀ i, Pointer.looseIndex? token = some i → Pointer.index? token = some i := by
        intro i hi
        obtain ⟨j, hj⟩ := hstrict i (.inr hi)
        rw [hj, ← looseIndex?_of_index? hj, hi]
      rw [withParents_containerFor hdash hindex, addAt?, descend?_holding hdash] at h
      obtain ⟨child, hchild, -⟩ := Option.map_eq_some_iff.mp h
      exact Pointer.unambiguous_cons_iff.mpr ⟨hindex, fun _ => hdash, ih hchild⟩

end Creation

section Recursion

variable {value out : Json} {token : String} {rest : Pointer} {members : List (String × Json)}
  {items : List Json}

theorem grow?_of_ne_null {path : Pointer} {x : Json} (h : x ≠ .null) :
    grow? value path x = addAt? value path (withParents false path x) := by
  cases path with
  | nil => rw [grow?, addAt?]
  | cons t rest => rw [grow?, if_neg h]

theorem grow?_null (h : Pointer.Unambiguous (token :: rest)) :
    grow? value (token :: rest) .null = some ((token :: rest).foldr holding value) := by
  rw [grow?, if_pos rfl, addAt?_withParents_containerFor h]

theorem grow?_object :
    grow? value (token :: rest) (.object members) =
      (grow? value rest ((Dict.get? members token).getD .null)).map fun y =>
        .object (Dict.insert members token y) := by
  rw [grow?, if_neg (by simp)]
  cases rest with
  | nil => simp [withParents, addAt?, insertChild?, grow?]
  | cons next rest =>
      rw [withParents, addAt?, descend?, Dict.get?_insert_self, grow?, Option.map_eq_bind]
      simp only [Option.bind_eq_bind, Option.bind_some, Dict.insert_insert]
      rfl

theorem grow?_array {next : String} :
    grow? value (token :: next :: rest) (.array items) =
      (Pointer.index? token).bind fun i => items[i]?.bind fun child =>
        (grow? value (next :: rest) child).map fun y => .array (items.set i y) := by
  rw [grow?, if_neg (by simp)]
  cases hindex : Pointer.index? token with
  | none =>
      obtain ⟨items', hitems⟩ := exists_withParents_array false token next rest items
      rw [hitems, addAt?, descend?, hindex]
      rfl
  | some i =>
      rw [withParents]
      simp only [position?_of_index? hindex, Bool.false_eq_true, if_false]
      cases hitem : items[i]? with
      | none => simp [addAt?, descend?, hindex, hitem]
      | some child =>
          obtain ⟨hlt, -⟩ := List.getElem?_eq_some_iff.mp hitem
          rw [addAt?, descend?, hindex]
          simp only [Option.bind_eq_bind, Option.bind_some, hitem, List.getElem?_set_self hlt,
            List.set_set, Option.map_eq_bind, grow?]
          rfl

theorem grow?_array_last :
    grow? value [token] (.array items) = insertChild? token value (.array items) := by
  rw [grow?, if_neg (by simp), withParents, addAt?]
  rfl

theorem grow?_scalar {x : Json} (h : x.IsScalar) : grow? value (token :: rest) x = none := by
  cases x with
  | null | array _ | object _ => exact h.elim
  | bool _ | number _ | string _ =>
      rw [grow?, if_neg (by simp)]
      cases rest <;> simp [withParents, addAt?, insertChild?, descend?]

end Recursion

end Json

end ResourceGraph
