import ResourceGraph.Proofs.Json.Walk

namespace ResourceGraph.Json

/-- A document before and after a value was added, by what the first token meets. -/
inductive Grown (value : Json) : Pointer → Json → Json → Prop
  | here {x : Json} : Grown value [] x value
  | filled {token : String} {rest : Pointer} :
      Grown value (token :: rest) .null ((token :: rest).foldr holding value)
  | member {token : String} {rest : Pointer} {members : List (String × Json)} {y : Json}
      (below : Grown value rest ((Dict.get? members token).getD .null) y) :
      Grown value (token :: rest) (.object members) (.object (Dict.insert members token y))
  | item {token : String} {rest : Pointer} {items : List Json} {i : Nat} {x y : Json}
      (hindex : Pointer.index? token = some i) (hitem : items[i]? = some x) (hrest : rest ≠ [])
      (below : Grown value rest x y) :
      Grown value (token :: rest) (.array items) (.array (items.set i y))
  | inserted {last : String} {items : List Json} {i : Nat} (hslot : slot? last items = some i)
      (hle : i ≤ items.length) : Grown value [last] (.array items) (.array (items.insertIdx i value))

/-- The child that a token means after an addition, where `-` is the last item. -/
def newest? (token : String) : Json → Option Json
  | .array items => if token = "-" then items.getLast? else (Json.array items).child? token
  | x => x.child? token

def SameKind : Json → Json → Prop
  | .object _, .object _ | .array _, .array _ => True
  | _, _ => False

/-- The location that an addition changes: the last member of the walk, which may be missing, the
null that it fills, or the array that takes an item. -/
def site : Pointer → Json → Location
  | token :: rest, .object members => .member token :: site rest ((Dict.get? members token).getD .null)
  | token :: rest@(_ :: _), .array items =>
      match Pointer.index? token with
      | some i => .item i :: site rest (items[i]?.getD .null)
      | none => []
  | _, _ => []

/-- A document before and after a value was added for the token `last` below `parents`. -/
structure Added (parents : Pointer) (last : String) (value doc out : Json) : Prop where
  /-- the value stands where the pointer says -/
  addressed : (out.at? parents).bind (newest? last) = some value
  /-- a parent that was missing or null holds what the next token means and nothing else -/
  created : ∀ walked token rest, parents ++ [last] = walked ++ token :: rest →
    (doc.at? walked).getD .null = .null → ∃ child, out.at? walked = some (holding token child)
  /-- any other parent stays an object or an array -/
  passed : ∀ walked token rest x, parents ++ [last] = walked ++ token :: rest →
    doc.at? walked = some x → x ≠ .null → ∃ y, out.at? walked = some y ∧ x.SameKind y
  /-- an array takes the value as a further item, behind which its items move up -/
  inserted : ∀ items, doc.at? parents = some (.array items) → ∃ i, slot? last items = some i ∧
    i ≤ items.length ∧ out.at? parents = some (.array (items.insertIdx i value))
  /-- nothing changes, appears or goes elsewhere -/
  kept : AgreesApart (site (parents ++ [last]) doc) doc out

@[simp] theorem site_nil (x : Json) : site [] x = [] := by
  cases x <;> simp [site]

@[simp] theorem site_null (path : Pointer) : site path .null = [] := by
  cases path <;> simp [site]

@[simp] theorem site_array_last (last : String) (items : List Json) :
    site [last] (.array items) = [] := by
  simp [site]

section Grown

variable {path rest : Pointer} {value doc out : Json} {token : String}

theorem grown_of_grow? (hpath : path.Unambiguous) (h : grow? value path doc = some out) :
    Grown value path doc out := by
  induction path generalizing doc out with
  | nil =>
      obtain rfl := Option.some.inj h
      exact .here
  | cons token rest ih =>
      have hrest := (Pointer.unambiguous_cons_iff.mp hpath).2.2
      cases doc with
      | null =>
          rw [grow?_null hpath] at h
          obtain rfl := Option.some.inj h
          exact .filled
      | bool b => exact nomatch (grow?_scalar (x := .bool b) trivial).symm.trans h
      | number n => exact nomatch (grow?_scalar (x := .number n) trivial).symm.trans h
      | string s => exact nomatch (grow?_scalar (x := .string s) trivial).symm.trans h
      | object members =>
          rw [grow?_object] at h
          obtain ⟨y, hy, rfl⟩ := Option.map_eq_some_iff.mp h
          exact .member (ih hrest hy)
      | array items =>
          cases rest with
          | nil =>
              rw [grow?_array_last] at h
              obtain ⟨i, hslot, hle, rfl⟩ := insertChild?_array_eq_some_iff.mp h
              exact .inserted hslot hle
          | cons next rest =>
              rw [grow?_array] at h
              obtain ⟨i, hindex, h⟩ := Option.bind_eq_some_iff.mp h
              obtain ⟨x, hitem, h⟩ := Option.bind_eq_some_iff.mp h
              obtain ⟨y, hy, rfl⟩ := Option.map_eq_some_iff.mp h
              exact .item hindex hitem (List.cons_ne_nil next rest) (ih hrest hy)

theorem at?_cons_object {members : List (String × Json)} :
    (Json.object members).at? (token :: rest) = (Dict.get? members token).bind (at? rest) := rfl

theorem at?_cons_insert {members : List (String × Json)} {y : Json} :
    (Json.object (Dict.insert members token y)).at? (token :: rest) = y.at? rest := by
  rw [at?_cons_object, Dict.get?_insert_self, Option.bind_some]

theorem at?_cons_array {items : List Json} {i : Nat} {x : Json}
    (hindex : Pointer.index? token = some i) (hitem : items[i]? = some x) :
    (Json.array items).at? (token :: rest) = x.at? rest := by
  rw [at?, child?, hindex, Option.bind_some, hitem, Option.bind_some]

theorem at?_cons_set {items : List Json} {i : Nat} {x y : Json}
    (hindex : Pointer.index? token = some i) (hitem : items[i]? = some x) :
    (Json.array (items.set i y)).at? (token :: rest) = y.at? rest :=
  at?_cons_array hindex (List.getElem?_set_self (List.getElem?_eq_some_iff.mp hitem).1)

theorem getD_at?_null (walked : Pointer) : ((Json.null).at? walked).getD .null = .null := by
  cases walked <;> rfl

theorem getD_at?_cons_object {members : List (String × Json)} (walked : Pointer) :
    ((Json.object members).at? (token :: walked)).getD .null =
      ((((Dict.get? members token).getD .null).at? walked).getD .null) := by
  rw [at?_cons_object]
  cases Dict.get? members token with
  | none => exact (getD_at?_null walked).symm
  | some x => rfl

theorem newest?_holding (token : String) (child : Json) :
    (holding token child).newest? token = some child := by
  by_cases hdash : token = "-"
  · simp [holding, newest?, hdash]
  · have hchild : (holding token child).child? token = some child := child?_holding hdash
    cases h : holding token child with
    | array items =>
        rw [h] at hchild
        rw [newest?, if_neg hdash, hchild]
    | _ =>
        rw [h] at hchild
        exact hchild

theorem at?_foldr_holding {walked : Pointer} (h : Pointer.Unambiguous (walked ++ rest))
    (hrest : rest ≠ []) :
    ((walked ++ rest).foldr holding value).at? walked = some (rest.foldr holding value) := by
  induction walked with
  | nil => rfl
  | cons token walked ih =>
      obtain ⟨-, hdash, hwalked⟩ := Pointer.unambiguous_cons_iff.mp h
      rw [List.cons_append, List.foldr_cons, at?, child?_holding (hdash (by simp [hrest])),
        Option.bind_some, ih hwalked]

theorem newest?_insertIdx {items : List Json} {i : Nat} (hslot : slot? token items = some i)
    (hle : i ≤ items.length) : (Json.array (items.insertIdx i value)).newest? token = some value := by
  rw [slot?] at hslot
  rw [newest?]
  by_cases hdash : token = "-"
  · rw [if_pos hdash, Option.some.injEq] at hslot
    subst hslot
    rw [if_pos hdash, List.insertIdx_length_self, List.getLast?_concat]
  · rw [if_neg hdash] at hslot
    rw [if_neg hdash, child?, hslot, Option.bind_some, List.getElem?_insertIdx_self, if_pos hle]

variable {parents walked : Pointer} {last : String}

theorem Grown.newest? (h : Grown value path doc out) (hpath : path.Unambiguous)
    (hsplit : path = parents ++ [last]) : (out.at? parents).bind (newest? last) = some value := by
  induction h generalizing parents with
  | here => exact absurd hsplit.symm (by simp)
  | filled =>
      rw [hsplit] at hpath ⊢
      rw [at?_foldr_holding hpath (List.cons_ne_nil last [])]
      exact newest?_holding last value
  | @member token rest members y below ih =>
      have hrest := (Pointer.unambiguous_cons_iff.mp hpath).2.2
      cases parents with
      | nil =>
          obtain ⟨rfl, rfl⟩ := List.cons.inj hsplit
          cases below
          exact Dict.get?_insert_self members token value
      | cons t parents =>
          obtain ⟨rfl, rfl⟩ := List.cons.inj hsplit
          rw [at?_cons_insert]
          exact ih hrest rfl
  | @item token rest items i x y hindex hitem hne below ih =>
      have hrest := (Pointer.unambiguous_cons_iff.mp hpath).2.2
      cases parents with
      | nil => exact absurd (List.cons.inj hsplit).2 hne
      | cons t parents =>
          obtain ⟨rfl, rfl⟩ := List.cons.inj hsplit
          rw [at?_cons_set hindex hitem]
          exact ih hrest rfl
  | inserted hslot hle =>
      cases parents with
      | nil =>
          obtain ⟨rfl, -⟩ := List.cons.inj hsplit
          exact newest?_insertIdx hslot hle
      | cons t parents => exact absurd (List.cons.inj hsplit).2.symm (by simp)

theorem Grown.created (h : Grown value path doc out) (hpath : path.Unambiguous)
    (hsplit : path = walked ++ token :: rest) (hmissing : (doc.at? walked).getD .null = .null) :
    ∃ child, out.at? walked = some (holding token child) := by
  induction h generalizing walked with
  | here => exact absurd hsplit.symm (by simp)
  | filled =>
      rw [hsplit] at hpath ⊢
      exact ⟨rest.foldr holding value, at?_foldr_holding hpath (List.cons_ne_nil token rest)⟩
  | @member t more members y below ih =>
      have hmore := (Pointer.unambiguous_cons_iff.mp hpath).2.2
      cases walked with
      | nil => exact nomatch hmissing
      | cons t walked =>
          obtain ⟨rfl, rfl⟩ := List.cons.inj hsplit
          rw [at?_cons_insert]
          exact ih hmore rfl (getD_at?_cons_object walked ▸ hmissing)
  | @item t more items i x y hindex hitem hne below ih =>
      have hmore := (Pointer.unambiguous_cons_iff.mp hpath).2.2
      cases walked with
      | nil => exact nomatch hmissing
      | cons t walked =>
          obtain ⟨rfl, rfl⟩ := List.cons.inj hsplit
          rw [at?_cons_array hindex hitem] at hmissing
          rw [at?_cons_set hindex hitem]
          exact ih hmore rfl hmissing
  | inserted hslot hle =>
      cases walked with
      | nil => exact nomatch hmissing
      | cons t walked => exact absurd (List.cons.inj hsplit).2.symm (by simp)

theorem Grown.sameKind {x : Json} (h : Grown value path doc out)
    (hsplit : path = walked ++ token :: rest) (hat : doc.at? walked = some x) (hx : x ≠ .null) :
    ∃ y, out.at? walked = some y ∧ x.SameKind y := by
  -- The walk ends at the root of the growth, or goes through the same member or item.
  induction h generalizing walked with
  | here => exact absurd hsplit.symm (by simp)
  | filled =>
      cases walked with
      | nil => exact absurd (Option.some.inj hat).symm hx
      | cons t walked => exact nomatch hat
  | @member t more members y below ih =>
      cases walked with
      | nil =>
          obtain rfl := Option.some.inj hat
          exact ⟨_, rfl, trivial⟩
      | cons t walked =>
          obtain ⟨rfl, rfl⟩ := List.cons.inj hsplit
          obtain ⟨child, hget, hat⟩ := Option.bind_eq_some_iff.mp hat
          have hget : Dict.get? members t = some child := hget
          rw [at?_cons_insert]
          exact ih rfl (by rw [hget, Option.getD_some, hat])
  | @item t more items i child y hindex hitem hne below ih =>
      cases walked with
      | nil =>
          obtain rfl := Option.some.inj hat
          exact ⟨_, rfl, trivial⟩
      | cons t walked =>
          obtain ⟨rfl, rfl⟩ := List.cons.inj hsplit
          rw [at?_cons_array hindex hitem] at hat
          rw [at?_cons_set hindex hitem]
          exact ih rfl hat
  | inserted hslot hle =>
      cases walked with
      | nil =>
          obtain rfl := Option.some.inj hat
          exact ⟨_, rfl, trivial⟩
      | cons t walked => exact absurd (List.cons.inj hsplit).2.symm (by simp)

theorem Grown.insertIdx {items : List Json} (h : Grown value path doc out)
    (hsplit : path = parents ++ [last]) (hat : doc.at? parents = some (.array items)) :
    ∃ i, slot? last items = some i ∧ i ≤ items.length ∧
      out.at? parents = some (.array (items.insertIdx i value)) := by
  induction h generalizing parents with
  | here => exact absurd hsplit.symm (by simp)
  | filled => cases parents <;> exact nomatch hat
  | @member t more members y below ih =>
      cases parents with
      | nil => exact nomatch hat
      | cons t parents =>
          obtain ⟨rfl, rfl⟩ := List.cons.inj hsplit
          obtain ⟨child, hget, hat⟩ := Option.bind_eq_some_iff.mp hat
          have hget : Dict.get? members t = some child := hget
          rw [at?_cons_insert]
          exact ih rfl (by rw [hget, Option.getD_some, hat])
  | @item t more items' i child y hindex hitem hne below ih =>
      cases parents with
      | nil => exact absurd (List.cons.inj hsplit).2 hne
      | cons t parents =>
          obtain ⟨rfl, rfl⟩ := List.cons.inj hsplit
          rw [at?_cons_array hindex hitem] at hat
          rw [at?_cons_set hindex hitem]
          exact ih rfl hat
  | @inserted t items' i hslot hle =>
      cases parents with
      | nil =>
          obtain ⟨rfl, -⟩ := List.cons.inj hsplit
          obtain rfl := Json.array.inj (Option.some.inj hat)
          exact ⟨i, hslot, hle, rfl⟩
      | cons t parents => exact absurd (List.cons.inj hsplit).2.symm (by simp)

theorem Grown.agreesApart (h : Grown value path doc out) : AgreesApart (site path doc) doc out := by
  induction h with
  | here => exact site_nil _ ▸ agreesApart_nil _ _
  | filled => exact site_null _ ▸ agreesApart_nil _ _
  | @member token rest members y below ih =>
      have hothers : ∀ s, s ≠ .member token →
          (Json.object (Dict.insert members token y)).step? s = (Json.object members).step? s :=
        fun s hs => step?_insert_of_ne y hs
      rw [site]
      cases hget : Dict.get? members token with
      | none =>
          rw [Option.getD_none, site_null]
          exact agreesApart_singleton hothers
      | some x =>
          rw [hget] at ih
          exact ih.below hothers hget (step?_insert_self y)
  | @item token rest items i x y hindex hitem hne below ih =>
      obtain ⟨next, rest, rfl⟩ := List.exists_cons_of_ne_nil hne
      rw [site, hindex]
      simp only [hitem, Option.getD_some]
      exact ih.below (fun s hs => step?_set_of_ne y hs) hitem
        (step?_set_self y (List.getElem?_eq_some_iff.mp hitem).1)
  | inserted hslot hle => exact site_array_last _ _ ▸ agreesApart_nil _ _

theorem added_of_grow? (hpath : Pointer.Unambiguous (parents ++ [last]))
    (h : grow? value (parents ++ [last]) doc = some out) : Added parents last value doc out := by
  have hgrown := grown_of_grow? hpath h
  exact {
    addressed := hgrown.newest? hpath rfl
    created := fun _ _ _ hsplit hmissing => hgrown.created hpath hsplit hmissing
    passed := fun _ _ _ _ hsplit hat hx => hgrown.sameKind hsplit hat hx
    inserted := fun _ hat => hgrown.insertIdx rfl hat
    kept := hgrown.agreesApart }

end Grown

end ResourceGraph.Json
