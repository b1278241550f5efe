import ResourceGraph.Patcher.Workload
import ResourceGraph.Proofs.Json.Canonical
import ResourceGraph.Proofs.Json.Location

namespace ResourceGraph

theorem Number.normalize_normalize (n : Number) : n.normalize.normalize = n.normalize := by
  cases n with
  | int k => rfl
  | float d =>
      rw [normalize]
      split
      · split
        · rfl
        · next n hn hrange => rw [normalize, hn]; exact if_neg hrange
      · next hn => rw [normalize, hn]

namespace Json

theorem normalizeItems_eq_map (items : List Json) : normalizeItems items = items.map normalize := by
  induction items with
  | nil => rfl
  | cons x rest ih => rw [normalizeItems, ih, List.map_cons]

theorem normalizeMembers_eq_mapValues (members : List (String × Json)) :
    normalizeMembers members = Dict.mapValues normalize members := by
  induction members with
  | nil => rfl
  | cons e rest ih =>
      rw [normalizeMembers, ih]
      rfl

theorem step?_normalize (s : Step) (x : Json) :
    x.normalize.step? s = (x.step? s).map normalize := by
  cases x with
  | array items =>
      cases s with
      | member name => rfl
      | item i =>
          rw [normalize, normalizeItems_eq_map, step?, List.getElem?_map]
          rfl
  | object members =>
      cases s with
      | member name =>
          rw [normalize, normalizeMembers_eq_mapValues, step?, Dict.get?_mapValues]
          rfl
      | item i => rfl
  | _ => cases s <;> rfl

theorem value?_normalize (location : Location) (x : Json) :
    x.normalize.value? location = (x.value? location).map normalize := by
  induction location generalizing x with
  | nil => rfl
  | cons s rest ih =>
      rw [value?_cons, value?_cons, step?_normalize, Option.map_bind]
      cases x.step? s with
      | none => rfl
      | some y => exact ih y

theorem normalize_eq_string_iff {x : Json} {s : String} :
    x.normalize = .string s ↔ x = .string s := by
  cases x <;> simp [normalize]

theorem normalize_eq_array_iff {x : Json} {items : List Json} :
    x.normalize = .array items ↔ ∃ old, x = .array old ∧ items = old.map normalize := by
  cases x <;> simp [normalize, normalizeItems_eq_map, eq_comm]

theorem normalize_eq_object_iff {x : Json} {members : List (String × Json)} :
    x.normalize = .object members ↔ ∃ old, x = .object old ∧ members = normalizeMembers old := by
  cases x <;> simp [normalize, eq_comm]

@[simp] theorem asString?_normalize (x : Json) : x.normalize.asString? = x.asString? := by
  cases x <;> rfl

mutual

theorem canonical_normalize (x : Json) : x.normalize.canonical = x.canonical.normalize := by
  cases x with
  | array items => exact congrArg array (canonical_normalizeItems items)
  | object members =>
      rw [normalize, canonical, canonical_normalizeMembers members, canonical, normalize,
        normalizeMembers_eq_mapValues, normalizeMembers_eq_mapValues]
      exact congrArg object (Dict.ofList_mapValues normalize _)
  | _ => rfl

theorem canonical_normalizeItems (items : List Json) :
    canonicalItems (normalizeItems items) = normalizeItems (canonicalItems items) := by
  match items with
  | [] => rfl
  | x :: rest =>
      rw [normalizeItems, canonicalItems, canonical_normalize x, canonical_normalizeItems rest,
        canonicalItems, normalizeItems]

theorem canonical_normalizeMembers (members : List (String × Json)) :
    canonicalMembers (normalizeMembers members) = normalizeMembers (canonicalMembers members) := by
  match members with
  | [] => rfl
  | (k, x) :: rest =>
      rw [normalizeMembers, canonicalMembers, canonical_normalize x,
        canonical_normalizeMembers rest, canonicalMembers, normalizeMembers]

end

mutual

@[simp] theorem normalize_normalize (x : Json) : x.normalize.normalize = x.normalize := by
  cases x with
  | number n => exact congrArg number n.normalize_normalize
  | array items => exact congrArg array (normalize_normalizeItems items)
  | object members => exact congrArg object (normalize_normalizeMembers members)
  | _ => rfl

theorem normalize_normalizeItems (items : List Json) :
    normalizeItems (normalizeItems items) = normalizeItems items := by
  match items with
  | [] => rfl
  | x :: rest =>
      rw [normalizeItems, normalizeItems, normalize_normalize x, normalize_normalizeItems rest]

theorem normalize_normalizeMembers (members : List (String × Json)) :
    normalizeMembers (normalizeMembers members) = normalizeMembers members := by
  match members with
  | [] => rfl
  | (k, x) :: rest =>
      rw [normalizeMembers, normalizeMembers, normalize_normalize x,
        normalize_normalizeMembers rest]

end

/-- Objects are sorted and numbers are normalised at every level. -/
structure Settled (x : Json) : Prop where
  canonical : x.canonical = x
  normal : x.normalize = x

theorem settled_normalize {x : Json} (h : x.canonical = x) : x.normalize.Settled where
  canonical := by rw [canonical_normalize, h]
  normal := normalize_normalize x

theorem settled_string (s : String) : (string s).Settled := ⟨rfl, rfl⟩

theorem settled_array_iff {items : List Json} : (array items).Settled ↔ ∀ x ∈ items, x.Settled := by
  have hnormal : (array items).normalize = array items ↔ ∀ x ∈ items, x.normalize = x := by
    rw [normalize, normalizeItems_eq_map, array.injEq]
    nth_rewrite 2 [← List.map_id items]
    exact List.map_inj_left
  constructor
  · intro h x hx
    exact ⟨canonical_array_iff.mp h.canonical x hx, hnormal.mp h.normal x hx⟩
  · intro h
    exact ⟨canonical_array_iff.mpr fun x hx => (h x hx).canonical,
      hnormal.mpr fun x hx => (h x hx).normal⟩

theorem settled_object_iff {members : Dict Json} :
    (object members).Settled ↔ members.Sorted ∧ ∀ e ∈ members, e.2.Settled := by
  have hnormal : (object members).normalize = object members ↔
      ∀ e ∈ members, e.2.normalize = e.2 := by
    rw [normalize, normalizeMembers_eq_mapValues, object.injEq, Dict.mapValues]
    nth_rewrite 2 [← List.map_id members]
    rw [List.map_inj_left]
    exact forall₂_congr fun e _ => by simp [Prod.ext_iff]
  constructor
  · intro h
    obtain ⟨hsorted, hvalues⟩ := canonical_object_iff.mp h.canonical
    exact ⟨hsorted, fun e he => ⟨hvalues e he, hnormal.mp h.normal e he⟩⟩
  · rintro ⟨hsorted, hvalues⟩
    exact ⟨canonical_object_iff.mpr ⟨hsorted, fun e he => (hvalues e he).canonical⟩,
      hnormal.mpr fun e he => (hvalues e he).normal⟩

section Settled

variable {members : Dict Json} {value x : Json} {k : String}

theorem Settled.insert (h : (object members).Settled) (hvalue : value.Settled) (k : String) :
    (object (members.insert k value)).Settled := by
  obtain ⟨hsorted, hvalues⟩ := settled_object_iff.mp h
  refine settled_object_iff.mpr ⟨hsorted.insert k value, fun e he => ?_⟩
  rcases Dict.mem_of_mem_insert he with rfl | he
  · exact hvalue
  · exact hvalues e he

theorem Settled.erase (h : (object members).Settled) (k : String) :
    (object (members.erase k)).Settled := by
  obtain ⟨hsorted, hvalues⟩ := settled_object_iff.mp h
  exact settled_object_iff.mpr
    ⟨hsorted.erase k, fun e he => hvalues e (List.mem_of_mem_filter he)⟩

theorem Settled.of_get? (h : (object members).Settled) (hx : members.get? k = some x) : x.Settled :=
  (settled_object_iff.mp h).2 _ (Dict.mem_of_get?_eq_some hx)

theorem Settled.of_value? {location : Location} {doc : Json} (h : doc.Settled)
    (hx : doc.value? location = some x) : x.Settled := by
  induction location generalizing doc with
  | nil =>
      obtain rfl := Option.some.inj hx
      exact h
  | cons s rest ih =>
      obtain ⟨y, hy, hx⟩ := Option.bind_eq_some_iff.mp hx
      refine ih ?_ hx
      cases doc with
      | object members =>
          cases s with
          | member name => exact h.of_get? hy
          | item i => cases hy
      | array items =>
          cases s with
          | member name => cases hy
          | item i => exact settled_array_iff.mp h y (List.mem_of_getElem? hy)
      | _ => cases s <;> cases hy

end Settled

end Json

end ResourceGraph
