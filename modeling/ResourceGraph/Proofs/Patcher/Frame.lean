import ResourceGraph.Proofs.Patcher.Environment

/-!
The frame of a patch of the workload. Outside the tables and environments that a patcher sets,
every value of the workload stays but for the form of its numbers, and nothing appears but the
objects that lead to a table.
-/

namespace ResourceGraph

open Json WorkloadPatch

namespace WorkloadPatch

theorem Table.apart_environmentAt (t : Table) (i : Nat) : t.location.Apart (environmentAt i) := by
  have hcontainers := t.apart_containers
  constructor
  · intro h
    rcases List.prefix_or_prefix_of_prefix h (List.prefix_append ..) with hway | hway
    · exact hcontainers.2 hway
    · exact hcontainers.1 hway
  · exact fun h => hcontainers.1 ((List.prefix_append ..).trans h)

end WorkloadPatch

namespace Patcher

variable {p : Patcher} {w w' : Resource} {location : Location}

/-- A location leads to a table or to an environment that a patcher changes. -/
def Passes (p : Patcher) (location : Location) : Prop :=
  (∃ t : Table, (t.patch? p).isSome ∧ location <+: t.location) ∨
    p.environment.isSome ∧ ∃ i, location <+: environmentAt i

/-- A workload before and after a patcher, as far as the patcher has nothing to say about it. -/
structure Framed (p : Patcher) (w w' : Resource) : Prop where
  identity : w'.id = w.id ∧ w'.type = w.type ∧ w'.dependsOn = w.dependsOn ∧
    w'.extensions = w.extensions
  /-- apart from what the patcher changes all is the same, or missing as before -/
  apart : ∀ location, ¬p.Touches location → ¬p.Passes location →
    (object w'.attributes).value? location =
      ((object w.attributes).value? location).map normalize
  /-- what leads to a change is still there, an object or an array of as many items as before -/
  stays : ∀ location x, ¬p.Touches location →
    (object w.attributes).value? location = some x →
      ∃ y, (object w'.attributes).value? location = some y ∧ x.normalize.SameShape y
  /-- what is new is an object that leads to a table -/
  created : ∀ location y, ¬p.Touches location →
    (object w.attributes).value? location = none →
      (object w'.attributes).value? location = some y →
        (∃ members, y = .object members) ∧ ∃ t : Table, (t.patch? p).isSome ∧
          location <+: t.location ∧ ((object w'.attributes).value? t.location).isSome
  /-- a table that the patcher does not set is the same -/
  table : ∀ t : Table, t.patch? p = none →
    (object w'.attributes).value? t.location =
      ((object w.attributes).value? t.location).map normalize
  /-- without variables all environments are the same -/
  environment : p.environment = none → ∀ i,
    (object w'.attributes).value? (environmentAt i) =
      ((object w.attributes).value? (environmentAt i)).map normalize

theorem not_touches_iff : ¬p.Touches location ↔
    (∀ t : Table, (t.patch? p).isSome → ¬t.location <+: location) ∧
      (p.environment.isSome → ∀ i, ¬environmentAt i <+: location) := by
  simp [Touches]

theorem not_passes_iff : ¬p.Passes location ↔
    (∀ t : Table, (t.patch? p).isSome → ¬location <+: t.location) ∧
      (p.environment.isSome → ∀ i, ¬location <+: environmentAt i) := by
  simp [Passes]

theorem not_touches_table {t : Table} (ht : t.patch? p = none) :
    ¬p.Touches t.location ∧ ¬p.Passes t.location := by
  have hne : ∀ t' : Table, (t'.patch? p).isSome → t'.location.Apart t.location := by
    intro t' ht'
    refine Table.apart fun he => ?_
    rw [he, ht] at ht'
    cases ht'
  rw [not_touches_iff, not_passes_iff]
  exact ⟨⟨fun t' ht' => (hne t' ht').1, fun _ i => (t.apart_environmentAt i).2⟩,
    fun t' ht' => (hne t' ht').2, fun _ i => (t.apart_environmentAt i).1⟩

theorem not_touches_environmentAt (hp : p.environment = none) (i : Nat) :
    ¬p.Touches (environmentAt i) ∧ ¬p.Passes (environmentAt i) := by
  rw [not_touches_iff, not_passes_iff, hp]
  exact ⟨⟨fun t _ => (t.apart_environmentAt i).1, nofun⟩, fun t _ => (t.apart_environmentAt i).2,
    nofun⟩

/-- A patcher that a workload takes keeps to its tables and environments. -/
theorem framed_of_patchStructure (h : p.patchStructure w = .ok w') : p.Framed w w' := by
  obtain ⟨tables, attributes, htables, hvariables, rfl⟩ := patchStructure_eq_ok_iff.mp h
  rw [patchTables_eq_foldlM] at htables
  -- Numbers are normalised first, so that all is compared with the normal form of `w`.
  have hnormal : ∀ location, (object (normalizeMembers w.attributes)).value? location =
      ((object w.attributes).value? location).map normalize :=
    fun location => value?_normalize location (.object w.attributes)
  have hapart : ∀ location, ¬p.Touches location → ¬p.Passes location →
      (object attributes).value? location =
        ((object w.attributes).value? location).map normalize := by
    intro location htouch hpass
    obtain ⟨htable, henv⟩ := not_touches_iff.mp htouch
    obtain ⟨hway, hwayEnv⟩ := not_passes_iff.mp hpass
    rw [(frame_of_patchVariables hvariables henv).2 hwayEnv, ← hnormal]
    exact Table.value?_of_apart (fun t _ ht => ⟨htable t ht, hway t ht⟩) htables
  exact {
    identity := ⟨rfl, rfl, rfl, rfl⟩
    apart := hapart
    stays := by
      intro location x htouch hx
      obtain ⟨htable, henv⟩ := not_touches_iff.mp htouch
      have hx' := (hnormal location).trans (congrArg _ hx)
      obtain ⟨y, hy, hxy⟩ := Table.sameShape_of_foldlM htables (fun t _ => htable t) hx'
      obtain ⟨z, hz, hyz⟩ := (frame_of_patchVariables hvariables henv).1.exists_right hy
      exact ⟨z, hz, hxy.trans hyz⟩
    created := by
      intro location y htouch hx hy
      obtain ⟨htable, henv⟩ := not_touches_iff.mp htouch
      have hx' := (hnormal location).trans (congrArg _ hx)
      have hframe := (frame_of_patchVariables hvariables henv).1
      cases hz : (object tables).value? location with
      | none =>
          rw [hz, hy] at hframe
          cases hframe
      | some z =>
          obtain ⟨⟨members, rfl⟩, t, -, ht, hway, hthere⟩ :=
            Table.created_of_foldlM Table.nodup_all htables (fun t _ => htable t) hx' hz
          obtain ⟨y', hy', hshape⟩ := hframe.exists_right hz
          obtain rfl := Option.some.inj (hy.symm.trans hy')
          refine ⟨hshape.exists_object, t, ht, hway, ?_⟩
          rwa [agreesApart_of_patchVariables hvariables _ t.apart_containers]
    table := fun t ht => hapart _ (not_touches_table ht).1 (not_touches_table ht).2
    environment := fun hp i =>
      hapart _ (not_touches_environmentAt hp i).1 (not_touches_environmentAt hp i).2 }

def replicated (members : List (String × Json)) (env : Option (List Json)) (replicas : Number) :
    Resource :=
  .new "api" .kubernetes (members ++
    [("spec", .object [("replicas", .number replicas),
      ("template", .object [("spec", .object [("containers", .array [containerOf env])])])])])

def unlabelled : Resource := replicated [] none (.float two)

def unlabelledConfigured : Resource :=
  replicated [("metadata", .object [("labels", .object [("team", .string "a")])])]
    (some [.object [("name", .string "MODE"), ("value", .string "debug")]]) (.int 2)

theorem configuring_unlabelled :
    configuring.patchStructure unlabelled = .ok unlabelledConfigured := by
  simp only [patchStructure, patchTables, patchTable?, configuring, patchTable,
    WorkloadPatch.labels, nested?, putNested, patchVariables, containers, patchContainersAt]
  rfl

theorem framed_of_patchStructure_of_missing_parent :
    configuring.Framed unlabelled unlabelledConfigured :=
  framed_of_patchStructure configuring_unlabelled

end Patcher

end ResourceGraph
