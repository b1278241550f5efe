import ResourceGraph.Proofs.Json.Growth

namespace ResourceGraph

namespace Pointer

theorem Unambiguous.of_append {walked rest : Pointer} (h : Unambiguous (walked ++ rest)) :
    Unambiguous rest := by
  induction walked with
  | nil => exact h
  | cons token walked ih => exact ih (unambiguous_cons_iff.mp h).2.2

end Pointer

namespace Json

/-- A walk along a pointer through the values of a document comes to `x` with `rest` left. -/
def Reaches (path : Pointer) (doc : Json) (rest : Pointer) (x : Json) : Prop :=
  ∃ walked, path = walked ++ rest ∧ doc.at? walked = some x

/-- The walk ends where a value can be added: at a null, at an object without the next member, or at
the last token in an object or within the bounds of an array. -/
inductive Takes : Pointer → Json → Prop
  | null {rest : Pointer} (hrest : rest ≠ []) : Takes rest .null
  | missing {token : String} {rest : Pointer} {members : List (String × Json)} (hrest : rest ≠ [])
      (hget : Dict.get? members token = none) : Takes (token :: rest) (.object members)
  | object {last : String} {members : List (String × Json)} : Takes [last] (.object members)
  | array {last : String} {items : List Json} {i : Nat} (hslot : slot? last items = some i)
      (hle : i ≤ items.length) : Takes [last] (.array items)

/-- The walk ends where no value can be added: at a scalar, at an array without the next item, or at
the last token out of the bounds of an array. -/
inductive Refuses : Pointer → Json → Prop
  | scalar {rest : Pointer} {x : Json} (hrest : rest ≠ []) (hx : x.IsScalar) : Refuses rest x
  | absent {token : String} {rest : Pointer} {items : List Json} (hrest : rest ≠ [])
      (hchild : (Json.array items).child? token = none) : Refuses (token :: rest) (.array items)
  | outside {last : String} {items : List Json}
      (hslot : ∀ i, slot? last items = some i → items.length < i) : Refuses [last] (.array items)

section Walks

variable {path rest : Pointer} {doc x y value : Json} {token : String}

theorem Takes.ne_nil (h : Takes rest x) : rest ≠ [] := by
  cases h <;> first | assumption | exact List.cons_ne_nil _ _

theorem Refuses.ne_nil (h : Refuses rest x) : rest ≠ [] := by
  cases h <;> first | assumption | exact List.cons_ne_nil _ _

theorem reaches_self (path : Pointer) (doc : Json) : Reaches path doc path doc := ⟨[], rfl, rfl⟩

theorem Reaches.cons (hchild : doc.child? token = some x) (h : Reaches path x rest y) :
    Reaches (token :: path) doc rest y := by
  obtain ⟨walked, rfl, hat⟩ := h
  refine ⟨token :: walked, rfl, ?_⟩
  rw [at?, hchild]
  exact hat

theorem takes_or_refuses (doc : Json) (hpath : path ≠ []) :
    (∃ rest x, Reaches path doc rest x ∧ Takes rest x) ∨
      ∃ rest x, Reaches path doc rest x ∧ Refuses rest x := by
  induction path generalizing doc with
  | nil => exact absurd rfl hpath
  | cons token path ih =>
      have hself := reaches_self (token :: path) doc
      -- At an existing child the walk goes on, unless the token is the last one.
      have hchild : ∀ child, path ≠ [] → doc.child? token = some child →
          (∃ rest x, Reaches (token :: path) doc rest x ∧ Takes rest x) ∨
            ∃ rest x, Reaches (token :: path) doc rest x ∧ Refuses rest x := by
        intro child hne hchild
        rcases ih child hne with ⟨rest, x, hreach, hend⟩ | ⟨rest, x, hreach, hend⟩
        · exact .inl ⟨rest, x, hreach.cons hchild, hend⟩
        · exact .inr ⟨rest, x, hreach.cons hchild, hend⟩
      cases doc with
      | null => exact .inl ⟨_, _, hself, .null hpath⟩
      | bool b => exact .inr ⟨_, _, hself, .scalar hpath trivial⟩
      | number n => exact .inr ⟨_, _, hself, .scalar hpath trivial⟩
      | string s => exact .inr ⟨_, _, hself, .scalar hpath trivial⟩
      | object members =>
          by_cases hlast : path = []
          · subst hlast
            exact .inl ⟨_, _, hself, .object⟩
          · cases hget : Dict.get? members token with
            | none => exact .inl ⟨_, _, hself, .missing hlast hget⟩
            | some child => exact hchild child hlast hget
      | array items =>
          by_cases hlast : path = []
          · subst hlast
            by_cases hslot : ∃ i, slot? token items = some i ∧ i ≤ items.length
            · obtain ⟨i, hi, hle⟩ := hslot
              exact .inl ⟨_, _, hself, .array hi hle⟩
            · refine .inr ⟨_, _, hself, .outside fun i hi => ?_⟩
              exact Nat.lt_of_not_le fun hle => hslot ⟨i, hi, hle⟩
          · cases hget : (Json.array items).child? token with
            | none => exact .inr ⟨_, _, hself, .absent hlast hget⟩
            | some child => exact hchild child hlast hget

theorem isSome_grow?_cons (hchild : doc.child? token = some x) (hrest : rest ≠ []) :
    (grow? value (token :: rest) doc).isSome = (grow? value rest x).isSome := by
  cases doc with
  | object members =>
      have hget : Dict.get? members token = some x := hchild
      rw [grow?_object, hget, Option.isSome_map, Option.getD_some]
  | array items =>
      obtain ⟨i, hi, hitem⟩ := Option.bind_eq_some_iff.mp hchild
      obtain ⟨next, rest, rfl⟩ := List.exists_cons_of_ne_nil hrest
      rw [grow?_array, hi, Option.bind_some, hitem, Option.bind_some, Option.isSome_map]
  | _ => cases hchild

theorem Reaches.isSome_grow? (h : Reaches path doc rest x) (hrest : rest ≠ []) :
    (grow? value path doc).isSome = (grow? value rest x).isSome := by
  obtain ⟨walked, rfl, hat⟩ := h
  induction walked generalizing doc with
  | nil =>
      obtain rfl := Option.some.inj hat
      rfl
  | cons token walked ih =>
      obtain ⟨child, hchild, hat⟩ := Option.bind_eq_some_iff.mp hat
      rw [List.cons_append, isSome_grow?_cons hchild (by simp [hrest]), ih hat]

theorem Takes.isSome_grow? (h : Takes rest x) (hrest : rest.Unambiguous) :
    (grow? value rest x).isSome := by
  cases h with
  | null hne =>
      obtain ⟨token, rest, rfl⟩ := List.exists_cons_of_ne_nil hne
      rw [grow?_null hrest]
      rfl
  | @missing token rest members hne hget =>
      obtain ⟨next, rest, rfl⟩ := List.exists_cons_of_ne_nil hne
      rw [grow?_object, hget, Option.getD_none, grow?_null (Pointer.unambiguous_cons_iff.mp hrest).2.2]
      rfl
  | object =>
      rw [grow?_object, grow?]
      rfl
  | array hslot hle =>
      rw [grow?_array_last, insertChild?_array_eq_some_iff.mpr ⟨_, hslot, hle, rfl⟩]
      rfl

theorem Refuses.grow?_eq_none (h : Refuses rest x) : grow? value rest x = none := by
  cases h with
  | scalar hne hx =>
      obtain ⟨token, rest, rfl⟩ := List.exists_cons_of_ne_nil hne
      exact grow?_scalar hx
  | @absent token rest items hne hchild =>
      obtain ⟨next, rest, rfl⟩ := List.exists_cons_of_ne_nil hne
      rw [grow?_array]
      cases hi : Pointer.index? token with
      | none => rfl
      | some i =>
          rw [child?, hi] at hchild
          rw [Option.bind_some, show items[i]? = none from hchild, Option.bind_none]
  | outside hslot =>
      rw [grow?_array_last, Option.eq_none_iff_forall_ne_some]
      intro out hout
      obtain ⟨i, hi, hle, -⟩ := insertChild?_array_eq_some_iff.mp hout
      exact absurd hle (Nat.not_le_of_lt (hslot i hi))

/-- A value can be added exactly when the walk ends where one can be taken. -/
theorem isSome_grow?_iff (hpath : path ≠ []) (h : path.Unambiguous) :
    (grow? value path doc).isSome ↔ ∃ rest x, Reaches path doc rest x ∧ Takes rest x := by
  constructor
  · intro hsome
    rcases takes_or_refuses doc hpath with htakes | ⟨rest, x, hreach, hrefuses⟩
    · exact htakes
    · rw [hreach.isSome_grow? hrefuses.ne_nil, hrefuses.grow?_eq_none] at hsome
      cases hsome
  · rintro ⟨rest, x, hreach, htakes⟩
    rw [hreach.isSome_grow? htakes.ne_nil]
    obtain ⟨walked, rfl, -⟩ := hreach
    exact htakes.isSome_grow? h.of_append

theorem grow?_eq_none_iff (hpath : path ≠ []) (h : path.Unambiguous) :
    grow? value path doc = none ↔ ∃ rest x, Reaches path doc rest x ∧ Refuses rest x := by
  constructor
  · intro hnone
    rcases takes_or_refuses doc hpath with htakes | hrefuses
    · have hsome : (grow? value path doc).isSome := (isSome_grow?_iff hpath h).mpr htakes
      rw [hnone] at hsome
      cases hsome
    · exact hrefuses
  · rintro ⟨rest, x, hreach, hrefuses⟩
    have hsame : (grow? value path doc).isSome = (grow? value rest x).isSome :=
      hreach.isSome_grow? hrefuses.ne_nil
    rw [hrefuses.grow?_eq_none] at hsame
    exact Option.not_isSome_iff_eq_none.mp (by simp [hsame])

end Walks

end Json

end ResourceGraph
