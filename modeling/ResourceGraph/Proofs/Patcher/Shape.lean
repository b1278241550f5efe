import ResourceGraph.Proofs.Patcher.Containers

namespace ResourceGraph

open Json

namespace Json

/-- The same value, or containers of one kind, arrays with as many items. -/
inductive SameShape : Json → Json → Prop
  | refl (x : Json) : SameShape x x
  | object (members members' : List (String × Json)) :
      SameShape (.object members) (.object members')
  | array {items items' : List Json} (h : items'.length = items.length) :
      SameShape (.array items) (.array items')

namespace SameShape

variable {x y z : Json}

theorem trans (hxy : x.SameShape y) (hyz : y.SameShape z) : x.SameShape z := by
  cases hxy with
  | refl => exact hyz
  | object =>
      cases hyz with
      | refl => exact .object ..
      | object => exact .object ..
  | array h =>
      cases hyz with
      | refl => exact .array h
      | array h' => exact .array (h'.trans h)

theorem exists_object {members : List (String × Json)} (h : SameShape (.object members) y) :
    ∃ members', y = .object members' := by
  cases h with
  | refl => exact ⟨members, rfl⟩
  | object _ members' => exact ⟨members', rfl⟩

theorem eq_of_number {n : Number} (h : SameShape (.number n) y) : y = .number n := by
  cases h
  rfl

end SameShape

/-- What is at a location, or is not, after a change that keeps shapes. -/
def SameShapes : Option Json → Option Json → Prop := Option.Rel SameShape

theorem SameShapes.exists_right {x : Json} {before after : Option Json}
    (h : SameShapes before after) (hx : before = some x) : ∃ y, after = some y ∧ x.SameShape y := by
  subst hx
  cases h with
  | some h => exact ⟨_, rfl, h⟩

theorem sameShapes_refl (x : Option Json) : SameShapes x x := by
  cases x with
  | none => exact .none
  | some x => exact .some (.refl x)

end Json

namespace WorkloadPatch

variable {location : Location} {attributes out : Dict Json} {x y : Json}

section Put

variable {path : List String} {value : Json}

theorem Put.sameShape (h : Put value path attributes out)
    (hoff : ¬Location.ofNames path <+: location)
    (hx : (object attributes).value? location = some x) :
    ∃ y, (object out).value? location = some y ∧ x.SameShape y := by
  by_cases hway : location <+: Location.ofNames path
  · have hne : location ≠ .ofNames path := fun he => hoff (he ▸ List.prefix_rfl)
    obtain ⟨members, rfl⟩ := h.exists_object hway hne hx
    obtain ⟨members', hmembers'⟩ := exists_object_of_value? h.value? hway hne
    exact ⟨_, hmembers', .object ..⟩
  · exact ⟨x, (h.agreesApart location ⟨hoff, hway⟩).trans hx, .refl x⟩

theorem Put.created (h : Put value path attributes out)
    (hoff : ¬Location.ofNames path <+: location)
    (hx : (object attributes).value? location = none)
    (hy : (object out).value? location = some y) :
    location <+: Location.ofNames path ∧ ∃ members, y = .object members := by
  by_cases hway : location <+: Location.ofNames path
  · have hne : location ≠ .ofNames path := fun he => hoff (he ▸ List.prefix_rfl)
    obtain ⟨members, hmembers⟩ := exists_object_of_value? h.value? hway hne
    exact ⟨hway, members, Option.some.inj (hy.symm.trans hmembers)⟩
  · rw [h.agreesApart location ⟨hoff, hway⟩, hx] at hy
    cases hy

end Put

namespace Table

variable {p : Patcher} {t : Table} {ts : List Table}

theorem sameShape_of_foldlM (h : ts.foldlM (run p) attributes = .ok out)
    (hoff : ∀ t ∈ ts, (t.patch? p).isSome → ¬t.location <+: location)
    (hx : (object attributes).value? location = some x) :
    ∃ y, (object out).value? location = some y ∧ x.SameShape y := by
  induction ts generalizing attributes x with
  | nil =>
      obtain rfl := Except.ok.inj h
      exact ⟨x, hx, .refl x⟩
  | cons first rest ih =>
      obtain ⟨next, hnext, hlater⟩ := Except.bind_eq_ok_iff.mp h
      have hrest := fun t ht => hoff t (List.mem_cons_of_mem first ht)
      rcases put_of_run hnext with rfl | ⟨hsome, value, hput⟩
      · exact ih hlater hrest hx
      · obtain ⟨z, hz, hxz⟩ := hput.sameShape (hoff first List.mem_cons_self hsome) hx
        obtain ⟨y, hy, hzy⟩ := ih hlater hrest hz
        exact ⟨y, hy, hxz.trans hzy⟩

/-- What patches of tables create outside them is an object on the way to one that there is in the
end. -/
theorem created_of_foldlM (hts : ts.Nodup) (h : ts.foldlM (run p) attributes = .ok out)
    (hoff : ∀ t ∈ ts, (t.patch? p).isSome → ¬t.location <+: location)
    (hx : (object attributes).value? location = none)
    (hy : (object out).value? location = some y) :
    (∃ members, y = .object members) ∧ ∃ t ∈ ts, (t.patch? p).isSome ∧ location <+: t.location ∧
      ((object out).value? t.location).isSome := by
  induction ts generalizing attributes with
  | nil =>
      obtain rfl := Except.ok.inj h
      rw [hx] at hy
      cases hy
  | cons first rest ih =>
      obtain ⟨next, hnext, hlater⟩ := Except.bind_eq_ok_iff.mp h
      obtain ⟨hfirst, hnodup⟩ := List.nodup_cons.mp hts
      have hrest := fun t ht => hoff t (List.mem_cons_of_mem first ht)
      cases hz : (object next).value? location with
      | none =>
          obtain ⟨hobject, t, ht, hcreated⟩ := ih hnodup hlater hrest hz
          exact ⟨hobject, t, List.mem_cons_of_mem first ht, hcreated⟩
      | some z =>
          rcases put_of_run hnext with rfl | ⟨hsome, value, hput⟩
          · rw [hx] at hz
            cases hz
          · obtain ⟨hway, members, rfl⟩ :=
              hput.created (hoff first List.mem_cons_self hsome) hx hz
            obtain ⟨y', hy', hshape⟩ := sameShape_of_foldlM hlater hrest hz
            obtain rfl := Option.some.inj (hy.symm.trans hy')
            have hstays : (object out).value? first.location = some value := by
              rw [value?_of_apart (fun t ht _ => apart ?_) hlater]
              · exact hput.value?
              · rintro rfl
                exact hfirst ht
            exact ⟨hshape.exists_object, first, List.mem_cons_self, hsome, hway,
              Option.isSome_iff_exists.mpr ⟨value, hstays⟩⟩

end Table

section Variables

variable {id : String} {environment : Option (List Variable)}

theorem sameShape_of_patchContainer {removals additions : List Variable} {c c' : Json}
    (h : patchContainer id removals additions c = .ok c') : c.SameShape c' := by
  obtain ⟨members, env, rfl, -, rfl⟩ := exists_env_of_patchContainer h
  exact .object ..

theorem frame_of_patchContainers {removals additions : List Variable} {items items' : List Json}
    (rest : Location) (h : patchContainers id removals additions items = .ok items')
    (hoff : ∀ i, ¬[Step.item i, .member "env"] <+: rest) :
    SameShapes ((array items).value? rest) ((array items').value? rest) ∧
      ((∀ i, ¬rest <+: [Step.item i, .member "env"]) →
        (array items').value? rest = (array items).value? rest) := by
  have hpatched := patchContainers_eq_ok_iff.mp h
  cases rest with
  | nil =>
      refine ⟨.some (.array hpatched.length_eq.symm), fun hpass => ?_⟩
      exact absurd List.nil_prefix (hpass 0)
  | cons s rest =>
      cases s with
      | member name => exact ⟨.none, fun _ => rfl⟩
      | item i =>
          have hitem := rel_getElem?_of_forall₂ hpatched i
          cases rest with
          | nil =>
              refine ⟨?_, fun hpass => absurd ⟨[.member "env"], rfl⟩ (hpass i)⟩
              simp only [value?_cons, step?]
              generalize items[i]? = old, items'[i]? = new at hitem
              cases hitem with
              | none => exact .none
              | some hc => exact .some (sameShape_of_patchContainer hc)
          | cons s rest =>
              -- Behind a container the way goes on with another field than the environment.
              have hs : s ≠ .member "env" := by
                rintro rfl
                exact hoff i ⟨rest, rfl⟩
              have hsame : (array items').value? (.item i :: s :: rest) =
                  (array items).value? (.item i :: s :: rest) := by
                rw [value?_cons, value?_cons, step?, step?]
                generalize items[i]? = old, items'[i]? = new at hitem
                cases hitem with
                | none => rfl
                | some hc =>
                    rw [Option.bind_some, Option.bind_some, value?_cons, value?_cons,
                      step?_patchContainer hc hs]
              exact ⟨hsame ▸ sameShapes_refl _, fun _ => hsame⟩

theorem frame_of_patchVariables (h : patchVariables id environment attributes = .ok out)
    (hoff : environment.isSome → ∀ i, ¬environmentAt i <+: location) :
    SameShapes ((object attributes).value? location) ((object out).value? location) ∧
      ((environment.isSome → ∀ i, ¬location <+: environmentAt i) →
        (object out).value? location = (object attributes).value? location) := by
  rcases put_of_patchVariables h with rfl | ⟨hsome, _, _, items, items', hitems, hpatched, hput⟩
  · exact ⟨sameShapes_refl _, fun _ => rfl⟩
  · by_cases hbelow : Location.ofNames containers <+: location
    · obtain ⟨rest, rfl⟩ := hbelow
      have hframe := frame_of_patchContainers rest hpatched fun i hi =>
        hoff hsome i ((List.prefix_append_right_inj _).mpr hi)
      rw [value?_append, value?_append, hitems, hput.value?]
      refine ⟨hframe.1, fun hpass => hframe.2 fun i hi => hpass hsome i ?_⟩
      exact (List.prefix_append_right_inj _).mpr hi
    · by_cases hway : location <+: Location.ofNames containers
      · have hne : location ≠ .ofNames containers := fun he => hbelow (he ▸ List.prefix_rfl)
        obtain ⟨members, hmembers⟩ := exists_object_of_value? hitems hway hne
        obtain ⟨members', hmembers'⟩ := exists_object_of_value? hput.value? hway hne
        rw [hmembers, hmembers']
        refine ⟨.some (.object ..), fun hpass => absurd ?_ (hpass hsome 0)⟩
        exact hway.trans (List.prefix_append ..)
      · have hsame := hput.agreesApart location ⟨hbelow, hway⟩
        exact ⟨hsame ▸ sameShapes_refl _, fun _ => hsame⟩

end Variables

end WorkloadPatch

end ResourceGraph
