import ResourceGraph.Proofs.Document
import ResourceGraph.Proofs.Document.Decoded

/-!
Values that are read back as they are written: what a reader makes of a JSON document it makes again
of the document that is written for it. There is one lemma for each way of putting readers together.
-/

namespace ResourceGraph.Document

open Json

/-- Every value keeps this rule. -/
def Unruled (_ : Json) : Prop := True

instance : Hereditary Unruled where
  items _ _ _ := trivial
  members _ _ _ := trivial

variable {α : Type} {depth : Nat} {read : Document → Option α} {write : α → Json}

/-- What is read from JSON inside at least `depth` collections is read again from what is written for
it, inside `depth` collections. -/
def Stable (depth : Nat) (read : Document → Option α) (write : α → Json) : Prop :=
  ∀ d x, Within Unruled depth d → read d = some x → read (.json depth (write x)) = some x

section Values

theorem stable_text : Stable depth text? .string := fun _ _ _ _ => rfl

theorem stable_json : Stable depth json? id := by
  rintro d x @⟨_, value, hdepth, -⟩ h
  rw [json?] at h
  split at h
  · next hlimit =>
    obtain rfl := Option.some.inj h
    have hle := depth_canonical_le value
    -- Sorting members may drop repeated ones, so the value can only become less deep.
    rw [id_eq, json?, canonical_canonical]
    apply if_pos
    omega
  · cases h

theorem Stable.list (h : Stable (depth + 1) read write) (hdepth : depth < jsonDepthLimit) :
    Stable depth (list? read) fun xs => .array (xs.map write) := by
  intro d xs hd hxs
  exact list?_json hdepth (hd.list? hxs h)

theorem Stable.dict (h : Stable (depth + 1) read write) (hdepth : depth < jsonDepthLimit) :
    Stable depth (dict? read) fun t => .object (t.mapValues write) := by
  intro d t hd ht
  obtain ⟨hsorted, hvalues⟩ := hd.dict? (P := fun x => read (.json (depth + 1) (write x)) = some x)
    ht h
  exact dict?_json hdepth hsorted hvalues

theorem dict?_empty (hdepth : depth < jsonDepthLimit) :
    dict? read (.json depth (.object [])) = some [] := by
  rw [dict?, members?, if_pos hdepth]
  rfl

theorem stable_table (hdepth : depth < jsonDepthLimit) : Stable depth (dict? json?) .ofDict := by
  have h := stable_json.dict hdepth
  simp only [Dict.mapValues, id_eq, List.map_id'] at h
  exact h

theorem string_ne_null {s : String} : Json.string s ≠ .null := by simp

theorem array_ne_null {items : List Json} : Json.array items ≠ .null := by simp

theorem object_ne_null {members : List (String × Json)} : Json.object members ≠ .null := by simp

theorem optional?_json_of_ne_null {value : Json} (h : value ≠ .null) :
    optional? read (.json depth value) = (read (.json depth value)).map some := by
  cases value with
  | null => exact absurd rfl h
  | _ => rfl

theorem Stable.optional (stable : Stable depth read write) {d : Document} {x : α}
    (hd : Within Unruled depth d) (hpresent : write x ≠ .null)
    (h : optional? read d = some (some x)) :
    optional? read (.json depth (write x)) = some (some x) := by
  rw [optional?_json_of_ne_null hpresent, stable d x hd (hd.optional? h)]
  rfl

end Values

section Fields

variable {s : Slots} {fields : Fields} {name : String} {x : α}
  (hnodup : (s.map Prod.fst).Nodup) (hfields : ∀ e ∈ fields, Within Unruled depth e.2)
  (stable : Stable depth read write)

include hnodup hfields stable

theorem Slots.required?_stable (h : fields.required? name read = some x)
    (hmem : (name, some (write x)) ∈ s) :
    (s.fields (.json depth)).required? name read = some x := by
  obtain ⟨d, hd, hx⟩ := Within.required? hfields h
  exact required?_fields hnodup hmem (stable d x hd hx)

theorem Slots.withDefault?_stable {default : α} {value : Option Json}
    (h : fields.withDefault? name default read = some x) (hmem : (name, value) ∈ s)
    (hvalue : value = none ∧ default = x ∨ value = some (write x))
    (hdefault : read (.json depth (write default)) = some default) :
    (s.fields (.json depth)).withDefault? name default read = some x := by
  apply withDefault?_fields hnodup hmem
  · intro hnone
    rcases hvalue with ⟨-, hx⟩ | hsome
    · exact hx
    · cases hnone.symm.trans hsome
  · intro j hj
    rcases hvalue with ⟨hnone, -⟩ | hsome
    · cases hnone.symm.trans hj
    · obtain rfl := Option.some.inj (hsome.symm.trans hj)
      rcases Within.withDefault? hfields h with rfl | ⟨d, hd, hx⟩
      · exact hdefault
      · exact stable d x hd hx

theorem Slots.optional?_stable {x : Option α} (h : fields.optional? name read = some x)
    (hmem : (name, x.map write) ∈ s) (hpresent : ∀ y, x = some y → write y ≠ .null) :
    (s.fields (.json depth)).optional? name read = some x := by
  apply optional?_fields hnodup hmem
  rintro y rfl
  obtain ⟨d, hd, hy⟩ := Within.optionalField? hfields h
  exact stable.optional hd (hpresent y rfl) hy

end Fields

theorem ne_null_of_optional?_json? {fields : Fields} {name : String} {x : Option Json}
    (hfields : ∀ e ∈ fields, Within Unruled depth e.2)
    (h : fields.optional? name json? = some x) : ∀ y, x = some y → id y ≠ .null := by
  rintro y rfl
  obtain ⟨d, hd, hy⟩ := Within.optionalField? hfields h
  exact hd.ne_null hy

theorem Stable.record {form : Form} {build : Fields → Option α} {slots : α → Slots}
    (hdepth : depth < jsonDepthLimit) (hnames : ∀ x, (slots x).map Prod.fst = form.names)
    (hnodup : form.names.Nodup)
    (hbuild : ∀ fields x, ((slots x).map Prod.fst).Nodup →
      (∀ e ∈ fields, Within Unruled (depth + 1) e.2) → build fields = some x →
        build ((slots x).fields (.json (depth + 1))) = some x) :
    Stable depth (fun d => (d.record? form).bind build) fun x => (slots x).json := by
  intro d x hd h
  obtain ⟨fields, hfields, h⟩ := Option.bind_eq_some_iff.mp h
  apply Option.bind_eq_some_iff.mpr
  refine ⟨_, Slots.record?_json hdepth (hnames x) hnodup, ?_⟩
  exact hbuild fields x (hnames x ▸ hnodup) (hd.record? hfields) h

theorem omitted {empty : Bool} {default x : α} (j : Json) (h : empty = true → default = x) :
    (if empty then none else some j) = none ∧ default = x ∨
      (if empty then none else some j) = some j := by
  cases empty with
  | false => exact .inr rfl
  | true => exact .inl ⟨rfl, h rfl⟩

section OpenRecords

variable {form : Form} {known : String}

theorem exists_members_of_members? {value : Json} {members : Fields}
    (h : members? (.json depth value) = some members) : ∃ entries, value = .object entries ∧
      depth < jsonDepthLimit ∧ members = entries.map fun e => (e.1, .json (depth + 1) e.2) := by
  cases value with
  | object entries =>
      rw [members?] at h
      split at h
      · next hlimit => exact ⟨entries, rfl, hlimit, (Option.some.inj h).symm⟩
      · cases h
  | _ => cases h

theorem setAside?_eq_some_iff {value : Json} {aside : Document} :
    setAside? (.json depth value) = some aside ↔
      aside = .json 0 value ∧ (value.depth = 0 ∨ depth + value.depth ≤ jsonDepthLimit) := by
  rw [setAside?, Option.ite_none_right_eq_some, Option.some.injEq, and_comm, eq_comm]

/-- A value set aside: it is read by itself, as if it were inside no collection. -/
inductive SetAside (depth bound : Nat) : Document → Prop where
  | json {value : Json} (hbound : value.depth < bound)
      (hdepth : value.depth = 0 ∨ depth + value.depth ≤ jsonDepthLimit) :
      SetAside depth bound (.json 0 value)

theorem setAside_of_openRecord? {value : Json} {fields others : Fields}
    (h : openRecord? form (.json depth value) = some (fields, others)) :
    (∀ e ∈ fields, Within Unruled (depth + 1) e.2) ∧
      ∀ e ∈ others, e.1 ∉ form.names ∧ SetAside (depth + 1) value.depth e.2 := by
  obtain ⟨members, hmembers, h⟩ := Option.bind_eq_some_iff.mp h
  obtain ⟨entries, rfl, -, rfl⟩ := exists_members_of_members? hmembers
  dsimp only at h
  split at h
  · cases h
  · obtain ⟨others', hothers, h⟩ := Option.bind_eq_some_iff.mp h
    obtain ⟨rfl, rfl⟩ := Prod.mk.inj (Option.some.inj h)
    constructor
    · intro e he
      obtain ⟨entry, -, rfl⟩ := List.mem_map.mp (List.mem_of_mem_filter he)
      exact .json (Nat.le_refl _) trivial
    · intro e he
      obtain ⟨member, hmember, he⟩ := Within.mem_of_mapM_eq_some hothers e he
      obtain ⟨hmem, hunknown⟩ := List.mem_filter.mp hmember
      obtain ⟨entry, hentry, rfl⟩ := List.mem_map.mp hmem
      obtain ⟨aside, haside, rfl⟩ := Option.map_eq_some_iff.mp he
      obtain ⟨rfl, hdepth⟩ := setAside?_eq_some_iff.mp haside
      refine ⟨by simpa using hunknown, .json ?_ hdepth⟩
      exact Nat.lt_succ_of_le ((depthMembers_le_iff entries _).mp (Nat.le_refl _) entry hentry)

theorem sorted_others {others : Fields} {entries : List (String × α)} {P : String × α → Prop}
    (h : others.mapM (fun e => (read e.2).map fun v => (e.1, v)) = some entries)
    (hread : ∀ e ∈ others, ∀ x, read e.2 = some x → P (e.1, x)) :
    (Dict.ofList entries).Sorted ∧ ∀ e ∈ Dict.ofList entries, P e := by
  refine ⟨Dict.sorted_ofList entries, ?_⟩
  intro e he
  obtain ⟨other, hother, he⟩ := Within.mem_of_mapM_eq_some h e (Dict.mem_of_mem_ofList he)
  obtain ⟨x, hx, rfl⟩ := Option.map_eq_some_iff.mp he
  exact hread other hother x hx

theorem openRecord?_object (hform : form.names = [known]) (hdepth : depth < jsonDepthLimit)
    {value : Json} {others : List (String × Json)} (hothers : ∀ e ∈ others, e.1 ≠ known ∧
      (e.2.depth = 0 ∨ depth + 1 + e.2.depth ≤ jsonDepthLimit)) :
    openRecord? form (.json depth (.object ((known, value) :: others))) =
      some ([(known, .json (depth + 1) value)], others.map fun e => (e.1, .json 0 e.2)) := by
  have hunknown : ∀ e ∈ others, e.1 ∉ form.names := by
    intro e he
    rw [hform, List.mem_singleton]
    exact (hothers e he).1
  have hknown : ((known, Document.json (depth + 1) value) ::
      others.map fun e => (e.1, Document.json (depth + 1) e.2)).filter
        (fun e => form.names.contains e.1) = [(known, .json (depth + 1) value)] := by
    rw [List.filter_cons_of_pos (by simp [hform]), List.filter_eq_nil_iff.mpr]
    intro e he
    obtain ⟨e', he', rfl⟩ := List.mem_map.mp he
    simp [hunknown e' he']
  have hrest : ((known, Document.json (depth + 1) value) ::
      others.map fun e => (e.1, Document.json (depth + 1) e.2)).filter
        (fun e => !form.names.contains e.1) =
          others.map fun e => (e.1, Document.json (depth + 1) e.2) := by
    rw [List.filter_cons_of_neg (by simp [hform]), List.filter_eq_self.mpr]
    intro e he
    obtain ⟨e', he', rfl⟩ := List.mem_map.mp he
    simp [hunknown e' he']
  have haside : (others.map fun e => (e.1, Document.json (depth + 1) e.2)).mapM
      (fun e => e.2.setAside?.map fun v => (e.1, v)) =
        some (others.map fun e => (e.1, Document.json 0 e.2)) := by
    apply List.mapM_eq_pure
    rw [List.map_map, List.map_map]
    refine List.map_congr_left fun e he => ?_
    have haside := setAside?_eq_some_iff.mpr ⟨rfl, (hothers e he).2⟩
    exact congrArg (Option.map (Prod.mk e.1)) haside
  simp only [openRecord?, members?, if_pos hdepth, List.map_cons, Option.bind_eq_bind,
    Option.bind_some, hknown, hrest, haside]
  rfl

end OpenRecords

end ResourceGraph.Document
