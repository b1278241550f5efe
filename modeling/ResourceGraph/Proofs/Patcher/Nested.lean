import ResourceGraph.Proofs.Json.Canonical
import ResourceGraph.Proofs.Outcome
import ResourceGraph.Proofs.Patcher.Normal

namespace ResourceGraph

namespace WorkloadPatch

open Json

variable {path : List String} {name : String} {members out : Dict Json} {value : Json}
  {location : Location}

theorem nested?_eq_value? (hpath : path ≠ []) :
    nested? path members = (object members).value? (.ofNames path) := by
  induction path generalizing members with
  | nil => exact absurd rfl hpath
  | cons name rest ih =>
      rw [Location.ofNames, List.map_cons, value?_cons, step?]
      cases rest with
      | nil =>
          rw [nested?]
          cases members.get? name <;> rfl
      | cons next rest =>
          rw [nested?]
          · cases members.get? name with
            | none => rfl
            | some x =>
                cases x with
                | object inner => exact ih (List.cons_ne_nil next rest)
                | _ => rfl

/-- A table before and after a value was put at a path. -/
inductive Put (value : Json) : List String → Dict Json → Dict Json → Prop
  | last {name : String} {members : Dict Json} : Put value [name] members (members.insert name value)
  | inside {name : String} {rest : List String} {members inner inner' : Dict Json}
      (hget : (members.get? name).getD (.object []) = .object inner) (h : Put value rest inner inner') :
      Put value (name :: rest) members (members.insert name (.object inner'))

theorem put_of_putNested {parents : List String} (hpath : path ≠ [])
    (h : putNested parents value path members = .ok out) : Put value path members out := by
  induction path generalizing members out with
  | nil => exact absurd rfl hpath
  | cons name rest ih =>
      cases rest with
      | nil =>
          rw [putNested, Except.ok.injEq] at h
          exact h ▸ .last
      | cons next rest =>
          rw [putNested] at h
          split at h
          · next hget =>
            rw [pure_bind] at h
            obtain ⟨inner', hput, hout⟩ := Except.bind_eq_ok_iff.mp h
            rw [← Except.pure_eq_ok_iff.mp hout]
            exact .inside (by rw [hget, Option.getD_none]) (ih (List.cons_ne_nil next rest) hput)
          · next inner hget =>
            rw [pure_bind] at h
            obtain ⟨inner', hput, hout⟩ := Except.bind_eq_ok_iff.mp h
            rw [← Except.pure_eq_ok_iff.mp hout]
            exact .inside (by rw [hget, Option.getD_some]) (ih (List.cons_ne_nil next rest) hput)
          · cases h

theorem Put.value? (h : Put value path members out) :
    (object out).value? (.ofNames path) = some value := by
  induction h with
  | last =>
      rw [Location.ofNames, List.map_singleton, value?_cons, step?_insert_self, Option.bind_some]
      rfl
  | inside hget h ih =>
      rw [Location.ofNames, List.map_cons, value?_cons, step?_insert_self, Option.bind_some]
      exact ih

theorem Put.agreesApart (h : Put value path members out) :
    AgreesApart (.ofNames path) (.object members) (.object out) := by
  induction h with
  | last => exact agreesApart_singleton fun s hs => step?_insert_of_ne _ hs
  | @inside name rest members inner inner' hget h ih =>
      refine AgreesApart.cons (fun s hs => step?_insert_of_ne _ hs) fun b hb => ?_
      rw [step?_insert_self, Option.bind_some, ih b hb, step?]
      cases hmember : members.get? name with
      | some x =>
          rw [hmember, Option.getD_some] at hget
          rw [hget, Option.bind_some]
      | none =>
          rw [hmember, Option.getD_none] at hget
          obtain ⟨s, rest, rfl⟩ := hb.exists_cons
          rw [← hget, value?_cons, step?_empty]
          rfl

theorem Put.exists_object (h : Put value path members out) {x : Json}
    (hway : location <+: Location.ofNames path) (hne : location ≠ .ofNames path)
    (hx : (object members).value? location = some x) : ∃ inner, x = .object inner := by
  induction h generalizing location with
  | @last name members =>
      cases location with
      | nil => exact ⟨members, (Option.some.inj hx).symm⟩
      | cons s location =>
          obtain ⟨rfl, hnil⟩ := List.cons_prefix_cons.mp hway
          rw [List.prefix_nil.mp hnil] at hne
          exact absurd rfl hne
  | @inside name rest members inner inner' hget h ih =>
      cases location with
      | nil => exact ⟨members, (Option.some.inj hx).symm⟩
      | cons s location =>
          obtain ⟨rfl, htail⟩ := List.cons_prefix_cons.mp hway
          obtain ⟨child, hchild, hx⟩ := Option.bind_eq_some_iff.mp hx
          have hchild : members.get? name = some child := hchild
          rw [hchild, Option.getD_some] at hget
          subst hget
          exact ih htail (fun he => hne (congrArg _ he)) hx

theorem exists_object_of_value? {doc x : Json} (hx : doc.value? (.ofNames path) = some x)
    (hway : location <+: Location.ofNames path) (hne : location ≠ .ofNames path) :
    ∃ inner, doc.value? location = some (.object inner) := by
  obtain ⟨rest, hrest⟩ := hway
  cases rest with
  | nil => exact absurd (by rw [← hrest, List.append_nil]) hne
  | cons s rest =>
      have hs : s ∈ Location.ofNames path := by rw [← hrest]; simp
      obtain ⟨name, -, rfl⟩ := List.mem_map.mp hs
      rw [← hrest, value?_append] at hx
      obtain ⟨y, hy, hx⟩ := Option.bind_eq_some_iff.mp hx
      obtain ⟨z, hz, -⟩ := Option.bind_eq_some_iff.mp hx
      cases y with
      | object inner => exact ⟨inner, hy⟩
      | _ => cases hz

/-- Every value on the way to a path is an object, as far as there are values. -/
def Open (path : List String) (members : Dict Json) : Prop :=
  ∀ location : Location, location <+: Location.ofNames path → location ≠ .ofNames path →
    ∀ x, (object members).value? location = some x → ∃ inner, x = .object inner

theorem open_of_value? {x : Json} (hx : (object members).value? (.ofNames path) = some x) :
    Open path members := by
  intro location hway hne y hy
  obtain ⟨inner, hinner⟩ := exists_object_of_value? hx hway hne
  exact ⟨inner, Option.some.inj (hy.symm.trans hinner)⟩

theorem open_empty (path : List String) : Open path [] := by
  intro location _ _ x hx
  cases location with
  | nil => exact ⟨[], (Option.some.inj hx).symm⟩
  | cons s rest =>
      rw [value?_cons, step?_empty] at hx
      cases hx

theorem Put.isOpen (h : Put value path members out) : Open path members :=
  fun _ hway hne _ hx => h.exists_object hway hne hx

theorem Open.inside {rest : List String} {x : Json} (h : Open (name :: rest) members)
    (hrest : rest ≠ []) (hx : members.get? name = some x) :
    ∃ inner, x = .object inner ∧ Open rest inner := by
  have hfirst : [Step.member name] <+: Location.ofNames (name :: rest) :=
    List.cons_prefix_cons.mpr ⟨rfl, List.nil_prefix⟩
  obtain ⟨inner, rfl⟩ := h [.member name] hfirst (by simpa [Location.ofNames] using hrest.symm) x
    (by rw [value?_cons, step?, hx]; rfl)
  refine ⟨inner, rfl, fun location hway hne y hy => ?_⟩
  refine h (.member name :: location) (List.cons_prefix_cons.mpr ⟨rfl, hway⟩) ?_ y ?_
  · exact fun he => hne (List.cons.inj he).2
  · rw [value?_cons, step?, hx]
    exact hy

theorem exists_putNested_iff {parents : List String} (hpath : path ≠ []) :
    (∃ out, putNested parents value path members = .ok out) ↔ Open path members := by
  constructor
  · rintro ⟨out, h⟩
    exact (put_of_putNested hpath h).isOpen
  · intro h
    induction path generalizing members with
    | nil => exact absurd rfl hpath
    | cons name rest ih =>
        cases rest with
        | nil => exact ⟨members.insert name value, by rw [putNested]⟩
        | cons next rest =>
            have hrest := List.cons_ne_nil next rest
            rw [putNested]
            cases hx : members.get? name with
            | none =>
                obtain ⟨inner', hinner'⟩ := ih hrest (open_empty _)
                exact ⟨_, by simp only [pure_bind, hinner']; rfl⟩
            | some x =>
                obtain ⟨inner, rfl, hinner⟩ := h.inside hrest hx
                obtain ⟨inner', hinner'⟩ := ih hrest hinner
                exact ⟨_, by simp only [pure_bind, hinner']; rfl⟩

/-- A put at one path leaves the way to another one open, or blocked. -/
theorem Put.open_iff {q : List String} (h : Put value path members out)
    (hapart : (Location.ofNames path).Apart (.ofNames q)) : Open q out ↔ Open q members := by
  refine forall₃_congr fun location hway hne => ?_
  by_cases hshared : location <+: Location.ofNames path
  · -- Both ways lead through the location, which holds an object after the put.
    have hne' : location ≠ .ofNames path := by
      rintro rfl
      exact hapart.1 hway
    refine iff_of_true (fun x hx => ?_) fun x hx => h.exists_object hshared hne' hx
    obtain ⟨inner, hinner⟩ := exists_object_of_value? h.value? hshared hne'
    exact ⟨inner, Option.some.inj (hx.symm.trans hinner)⟩
  · rw [h.agreesApart location ⟨fun hp => hapart.1 (hp.trans hway), hshared⟩]

theorem Put.eq_of_value? (h : Put value path members out)
    (hdoc : (object members).canonical = object members)
    (hx : (object members).value? (.ofNames path) = some value) : out = members := by
  induction h with
  | last =>
      obtain ⟨y, hy, hx⟩ := Option.bind_eq_some_iff.mp hx
      obtain rfl := Option.some.inj hx
      exact (canonical_object_iff.mp hdoc).1.insert_of_get? hy
  | @inside name rest members inner inner' hget h ih =>
      obtain ⟨y, hy, hx⟩ := Option.bind_eq_some_iff.mp hx
      have hy : members.get? name = some y := hy
      rw [hy, Option.getD_some] at hget
      subst hget
      obtain ⟨hsorted, hinner⟩ := canonical_object_iff.mp hdoc
      obtain rfl := ih (hinner _ (Dict.mem_of_get?_eq_some hy)) hx
      exact hsorted.insert_of_get? hy

theorem exists_put_of_patchContainersAt {id : String}
    {f : List Json → Except PatchFault (List Json)} (h : patchContainersAt id f path members = .ok out) :
    ∃ items items', (object members).value? (.ofNames path) = some (.array items) ∧
      f items = .ok items' ∧ Put (.array items') path members out := by
  induction path generalizing members out with
  | nil =>
      rw [patchContainersAt] at h
      cases h
  | cons name rest ih =>
      rw [Location.ofNames, List.map_cons]
      simp only [value?_cons, step?]
      cases rest with
      | nil =>
          rw [patchContainersAt] at h
          split at h
          · next items hitems =>
            obtain ⟨items', hf, rfl⟩ := Except.map_eq_ok_iff.mp h
            exact ⟨items, items', by rw [hitems]; rfl, hf, .last⟩
          · cases h
      | cons next rest =>
          rw [patchContainersAt] at h
          · split at h
            · next inner hinner =>
              obtain ⟨inner', hrest, rfl⟩ := Except.map_eq_ok_iff.mp h
              obtain ⟨items, items', hitems, hf, hput⟩ := ih hrest
              exact ⟨items, items', by rw [hinner]; exact hitems, hf,
                .inside (by rw [hinner, Option.getD_some]) hput⟩
            · cases h

theorem exists_patchContainersAt {id : String} {f : List Json → Except PatchFault (List Json)}
    {items items' : List Json} (hpath : path ≠ [])
    (hitems : (object members).value? (.ofNames path) = some (.array items))
    (hf : f items = .ok items') : ∃ out, patchContainersAt id f path members = .ok out := by
  induction path generalizing members with
  | nil => exact absurd rfl hpath
  | cons name rest ih =>
      obtain ⟨x, hx, hitems⟩ := Option.bind_eq_some_iff.mp hitems
      have hx : members.get? name = some x := hx
      cases rest with
      | nil =>
          obtain rfl := Option.some.inj hitems
          exact ⟨_, by rw [patchContainersAt, hx]; simp only [hf]; rfl⟩
      | cons next rest =>
          cases x with
          | object inner =>
              obtain ⟨inner', hinner'⟩ := ih (List.cons_ne_nil next rest) hitems
              exact ⟨_, by rw [patchContainersAt, hx]; simp only [hinner']; rfl⟩
          | _ => cases hitems

theorem patchContainersAt_eq_self {id : String} {f : List Json → Except PatchFault (List Json)}
    {items : List Json} (hpath : path ≠ [])
    (hdoc : (object members).canonical = object members)
    (hitems : (object members).value? (.ofNames path) = some (.array items))
    (hf : f items = .ok items) : patchContainersAt id f path members = .ok members := by
  obtain ⟨out, hout⟩ : ∃ out, patchContainersAt id f path members = .ok out :=
    exists_patchContainersAt hpath hitems hf
  obtain ⟨old, new, hold, hnew, hput⟩ := exists_put_of_patchContainersAt hout
  obtain rfl := Json.array.inj (Option.some.inj (hitems.symm.trans hold))
  obtain rfl := Except.ok.inj (hf.symm.trans hnew)
  obtain rfl := hput.eq_of_value? hdoc hitems
  exact hout

theorem put_of_patchVariables {id : String} {environment : Option (List Variable)}
    (h : patchVariables id environment members = .ok out) :
    out = members ∨ environment.isSome ∧ ∃ removals additions items items',
      (object members).value? (.ofNames containers) = some (.array items) ∧
        patchContainers id removals additions items = .ok items' ∧
          Put (.array items') containers members out := by
  unfold patchVariables at h
  split at h
  · exact .inl (Except.ok.inj h).symm
  · obtain ⟨items, items', hitems, hpatched, hput⟩ := exists_put_of_patchContainersAt h
    exact .inr ⟨rfl, _, _, items, items', hitems, hpatched, hput⟩

end WorkloadPatch

end ResourceGraph
