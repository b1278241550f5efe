import ResourceGraph.Proofs.Dict
import ResourceGraph.Proofs.Json.Texts
import ResourceGraph.Yaml.Plain

namespace ResourceGraph

def Number.Held : Number → Prop
  | .int n => Yaml.Plain.inWord n = true
  | .float d => d.Canonical

namespace Json

mutual

/-- All numbers are in range. -/
def Held : Json → Prop
  | .number n => n.Held
  | .array items => HeldItems items
  | .object members => HeldMembers members
  | _ => True

def HeldItems : List Json → Prop
  | [] => True
  | x :: rest => x.Held ∧ HeldItems rest

def HeldMembers : List (String × Json) → Prop
  | [] => True
  | (_, x) :: rest => x.Held ∧ HeldMembers rest

end

theorem heldItems_iff (items : List Json) : HeldItems items ↔ ∀ x ∈ items, x.Held := by
  induction items with
  | nil => simp [HeldItems]
  | cons x rest ih => rw [HeldItems, ih, List.forall_mem_cons]

theorem heldMembers_iff (members : List (String × Json)) :
    HeldMembers members ↔ ∀ e ∈ members, e.2.Held := by
  induction members with
  | nil => simp [HeldMembers]
  | cons e rest ih => rw [HeldMembers, ih, List.forall_mem_cons]

theorem depthItems_le_iff (items : List Json) (n : Nat) :
    depthItems items ≤ n ↔ ∀ x ∈ items, x.depth ≤ n := by
  induction items with
  | nil => simp [depthItems]
  | cons x rest ih => rw [depthItems, Nat.max_le, ih, List.forall_mem_cons]

theorem depthMembers_le_iff (members : List (String × Json)) (n : Nat) :
    depthMembers members ≤ n ↔ ∀ e ∈ members, e.2.depth ≤ n := by
  induction members with
  | nil => simp [depthMembers]
  | cons e rest ih => rw [depthMembers, Nat.max_le, ih, List.forall_mem_cons]

section Maps

variable (f : String → String)

mutual

theorem held_mapTexts (j : Json) : (j.mapTexts f).Held ↔ j.Held := by
  cases j with
  | array items => exact held_mapItems items
  | object members => exact held_mapMembers members
  | _ => rfl

theorem held_mapItems (items : List Json) : HeldItems (mapItems f items) ↔ HeldItems items := by
  match items with
  | [] => rfl
  | x :: rest => rw [mapItems, HeldItems, held_mapTexts x, held_mapItems rest, HeldItems]

theorem held_mapMembers (members : List (String × Json)) :
    HeldMembers (mapMembers f members) ↔ HeldMembers members := by
  match members with
  | [] => rfl
  | (k, x) :: rest =>
      rw [mapMembers, HeldMembers, held_mapTexts x, held_mapMembers rest, HeldMembers]

end

mutual

@[simp] theorem depth_mapTexts (j : Json) : (j.mapTexts f).depth = j.depth := by
  cases j with
  | array items => exact congrArg (· + 1) (depth_mapItems items)
  | object members => exact congrArg (· + 1) (depth_mapMembers members)
  | _ => rfl

theorem depth_mapItems (items : List Json) : depthItems (mapItems f items) = depthItems items := by
  match items with
  | [] => rfl
  | x :: rest => rw [mapItems, depthItems, depth_mapTexts x, depth_mapItems rest, depthItems]

theorem depth_mapMembers (members : List (String × Json)) :
    depthMembers (mapMembers f members) = depthMembers members := by
  match members with
  | [] => rfl
  | (k, x) :: rest =>
      rw [mapMembers, depthMembers, depth_mapTexts x, depth_mapMembers rest, depthMembers]

end

mutual

theorem canonical_mapTexts (j : Json) : (j.mapTexts f).canonical = j.canonical.mapTexts f := by
  cases j with
  | array items => exact congrArg array (canonical_mapItems items)
  | object members =>
      rw [mapTexts, canonical, canonical_mapMembers members, canonical, mapTexts, mapMembers_eq_map,
        Dict.ofList_mapValues, mapMembers_eq_map]
      rfl
  | _ => rfl

theorem canonical_mapItems (items : List Json) :
    canonicalItems (mapItems f items) = mapItems f (canonicalItems items) := by
  match items with
  | [] => rfl
  | x :: rest =>
      rw [mapItems, canonicalItems, canonical_mapTexts x, canonical_mapItems rest, canonicalItems,
        mapItems]

theorem canonical_mapMembers (members : List (String × Json)) :
    canonicalMembers (mapMembers f members) = mapMembers f (canonicalMembers members) := by
  match members with
  | [] => rfl
  | (k, x) :: rest =>
      rw [mapMembers, canonicalMembers, canonical_mapTexts x, canonical_mapMembers rest,
        canonicalMembers, mapMembers]

end

end Maps

section Canonical

mutual

theorem held_canonical (j : Json) (h : j.Held) : j.canonical.Held := by
  cases j with
  | array items => exact held_canonicalItems items h
  | object members =>
      refine (heldMembers_iff _).2 fun e he => ?_
      exact (heldMembers_iff _).1 (held_canonicalMembers members h) e (Dict.mem_of_mem_ofList he)
  | _ => exact h

theorem held_canonicalItems (items : List Json) (h : HeldItems items) :
    HeldItems (canonicalItems items) := by
  match items with
  | [] => trivial
  | x :: rest => exact ⟨held_canonical x h.1, held_canonicalItems rest h.2⟩

theorem held_canonicalMembers (members : List (String × Json)) (h : HeldMembers members) :
    HeldMembers (canonicalMembers members) := by
  match members with
  | [] => trivial
  | (k, x) :: rest => exact ⟨held_canonical x h.1, held_canonicalMembers rest h.2⟩

end

mutual

theorem depth_canonical_le (j : Json) : j.canonical.depth ≤ j.depth := by
  cases j with
  | array items => exact Nat.succ_le_succ (depth_canonicalItems_le items)
  | object members =>
      refine Nat.succ_le_succ ((depthMembers_le_iff _ _).2 fun e he => ?_)
      exact (depthMembers_le_iff _ _).1 (depth_canonicalMembers_le members) e
        (Dict.mem_of_mem_ofList he)
  | _ => exact Nat.le_refl _

theorem depth_canonicalItems_le (items : List Json) :
    depthItems (canonicalItems items) ≤ depthItems items := by
  match items with
  | [] => exact Nat.le_refl _
  | x :: rest =>
      have hx := depth_canonical_le x
      have hrest := depth_canonicalItems_le rest
      rw [canonicalItems, depthItems, depthItems]
      omega

theorem depth_canonicalMembers_le (members : List (String × Json)) :
    depthMembers (canonicalMembers members) ≤ depthMembers members := by
  match members with
  | [] => exact Nat.le_refl _
  | (k, x) :: rest =>
      have hx := depth_canonical_le x
      have hrest := depth_canonicalMembers_le rest
      rw [canonicalMembers, depthMembers, depthMembers]
      omega

end

theorem canonicalMembers_eq_self {members : List (String × Json)}
    (h : ∀ e ∈ members, e.2.canonical = e.2) : canonicalMembers members = members := by
  rw [canonicalMembers_eq_map]
  refine (List.map_congr_left fun e he => ?_).trans (List.map_id members)
  rw [h e he]
  rfl

mutual

@[simp] theorem canonical_canonical (j : Json) : j.canonical.canonical = j.canonical := by
  cases j with
  | array items => exact congrArg array (canonical_canonicalItems items)
  | object members =>
      have hmembers := canonical_canonicalMembers members
      rw [canonical, canonical, canonicalMembers_eq_self, Dict.ofList_of_sorted (Dict.sorted_ofList _)]
      exact fun e he => hmembers e (Dict.mem_of_mem_ofList he)
  | _ => rfl

theorem canonical_canonicalItems (items : List Json) :
    canonicalItems (canonicalItems items) = canonicalItems items := by
  match items with
  | [] => rfl
  | x :: rest =>
      rw [canonicalItems, canonicalItems, canonical_canonical x, canonical_canonicalItems rest]

theorem canonical_canonicalMembers (members : List (String × Json)) :
    ∀ e ∈ canonicalMembers members, e.2.canonical = e.2 := by
  match members with
  | [] => exact fun e he => nomatch he
  | (k, x) :: rest =>
      intro e he
      rcases List.mem_cons.1 he with rfl | he
      · exact canonical_canonical x
      · exact canonical_canonicalMembers rest e he

end

theorem canonical_array_iff {items : List Json} :
    (array items).canonical = array items ↔ ∀ x ∈ items, x.canonical = x := by
  rw [canonical, canonicalItems_eq_map, array.injEq]
  nth_rewrite 2 [← List.map_id items]
  exact List.map_inj_left

theorem canonical_object_iff {members : Dict Json} :
    (object members).canonical = object members ↔
      members.Sorted ∧ ∀ e ∈ members, e.2.canonical = e.2 := by
  rw [canonical, object.injEq]
  constructor
  · intro h
    refine ⟨h ▸ Dict.sorted_ofList _, ?_⟩
    intro e he
    rw [← h] at he
    exact canonical_canonicalMembers members e (Dict.mem_of_mem_ofList he)
  · rintro ⟨hsorted, hvalues⟩
    rw [canonicalMembers_eq_self hvalues, Dict.ofList_of_sorted hsorted]

end Canonical

/-- A value as a document leaves it. -/
structure Regular (j : Json) : Prop where
  held : j.Held
  canonical : j.canonical = j
  depth_le : j.depth ≤ 125

theorem Regular.mapTexts {j : Json} (h : j.Regular) (f : String → String) :
    (j.mapTexts f).Regular where
  held := (held_mapTexts f j).2 h.held
  canonical := by rw [canonical_mapTexts, h.canonical]
  depth_le := by
    rw [depth_mapTexts]
    exact h.depth_le

theorem regular_canonical {j : Json} (hheld : j.Held) (hdepth : j.depth ≤ 125) :
    j.canonical.Regular where
  held := held_canonical j hheld
  canonical := canonical_canonical j
  depth_le := Nat.le_trans (depth_canonical_le j) hdepth

end Json

end ResourceGraph
