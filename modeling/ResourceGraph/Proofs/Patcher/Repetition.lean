import ResourceGraph.Proofs.Patcher.Acceptance

/-!
Patches of the workload applied again. A patch leaves every table that it sets at rest, and so does
it leave the environments if it adds nothing to them; what is at rest does not change any more.
-/

namespace ResourceGraph

open Json

namespace WorkloadPatch

section OneTable

variable {path : List String} {patch : Dict String} {attributes out entries : Dict Json}
  {value : Json}

theorem Put.settled (h : Put value path attributes out) (hvalue : value.Settled)
    (hdoc : (object attributes).Settled) : (object out).Settled := by
  induction h with
  | last => exact hdoc.insert hvalue _
  | @inside name rest members inner inner' hget h ih =>
      refine hdoc.insert (ih ?_) name
      cases hx : members.get? name with
      | none =>
          rw [hx, Option.getD_none] at hget
          exact hget ▸ settled_object_iff.mpr ⟨Dict.sorted_nil, nofun⟩
      | some x =>
          rw [hx, Option.getD_some] at hget
          exact hget ▸ hdoc.of_get? hx

theorem settled_mergeEntries (h : (object entries).Settled) :
    (object (mergeEntries entries patch)).Settled := by
  induction patch generalizing entries with
  | nil => exact h
  | cons e rest ih =>
      rw [mergeEntries]
      split
      · exact ih (h.erase e.1)
      · exact ih (h.insert (settled_string e.2) e.1)

theorem texts_mergeEntries (h : ∀ e ∈ entries, ∃ s, e.2 = .string s) :
    ∀ e ∈ mergeEntries entries patch, ∃ s, e.2 = .string s := by
  induction patch generalizing entries with
  | nil => exact h
  | cons e rest ih =>
      rw [mergeEntries]
      split
      · exact ih fun x hx => h x (List.mem_of_mem_filter hx)
      · refine ih fun x hx => ?_
        rcases Dict.mem_of_mem_insert hx with rfl | hx
        · exact ⟨e.2, rfl⟩
        · exact h x hx

theorem mergeEntries_eq_self (hsorted : entries.Sorted)
    (h : ∀ e ∈ patch, entries.get? e.1 = if e.2 = removalValue then none else some (.string e.2)) :
    mergeEntries entries patch = entries := by
  induction patch with
  | nil => rfl
  | cons e rest ih =>
      obtain ⟨he, hrest⟩ := List.forall_mem_cons.mp h
      rw [mergeEntries]
      split
      · next hvalue =>
        rw [if_pos hvalue] at he
        rw [Dict.erase_of_get?_eq_none he, ih hrest]
      · next hvalue =>
        rw [if_neg hvalue] at he
        rw [hsorted.insert_of_get? he, ih hrest]

theorem mergeEntries_mergeEntries (hpatch : patch.Sorted) (h : (object entries).Settled) :
    mergeEntries (mergeEntries entries patch) patch = mergeEntries entries patch := by
  refine mergeEntries_eq_self (settled_object_iff.mp (settled_mergeEntries h)).1 fun e he => ?_
  rw [get?_mergeEntries hpatch, hpatch.get?_of_mem he]

/-- A table does not change any more: it is absent and the patch only removes, or its entries are
what the patch says. -/
def AtRest (path : List String) (patch : Dict String) (attributes : Dict Json) : Prop :=
  match (object attributes).value? (.ofNames path) with
  | none => mergeEntries [] patch = []
  | some (.object members) =>
      (∀ e ∈ members, ∃ s, e.2 = .string s) ∧ mergeEntries members patch = members
  | some _ => False

theorem settled_entriesOf (hdoc : (object attributes).Settled) (location : Location) :
    (object (entriesOf ((object attributes).value? location))).Settled := by
  cases hx : (object attributes).value? location with
  | none => exact settled_object_iff.mpr ⟨Dict.sorted_nil, nofun⟩
  | some x =>
      cases x with
      | object members => exact hdoc.of_value? hx
      | _ => exact settled_object_iff.mpr ⟨Dict.sorted_nil, nofun⟩

theorem Fits.texts (h : Fits path patch attributes) :
    ∀ e ∈ entriesOf ((object attributes).value? (.ofNames path)), ∃ s, e.2 = .string s := by
  unfold Fits at h
  cases hx : (object attributes).value? (.ofNames path) with
  | none => exact nofun
  | some x =>
      rw [hx] at h
      cases x with
      | object members => exact h
      | _ => exact nofun

theorem atRest_of_patchTable (hpath : path ≠ []) (hpatch : patch.Sorted)
    (hdoc : (object attributes).Settled) (h : patchTable path patch attributes = .ok out) :
    (object out).Settled ∧ AtRest path patch out := by
  rcases put_of_patchTable hpath h with ⟨habsent, hempty, rfl⟩ | hput
  · refine ⟨hdoc, ?_⟩
    rw [nested?_eq_value? hpath] at habsent
    rw [AtRest, habsent]
    exact hempty
  · rw [nested?_eq_value? hpath] at hput
    have hentries := settled_entriesOf hdoc (.ofNames path)
    have htexts := ((exists_patchTable_iff hpath hpatch).mp ⟨out, h⟩).texts
    refine ⟨hput.settled (settled_mergeEntries hentries) hdoc, ?_⟩
    rw [AtRest, hput.value?]
    exact ⟨texts_mergeEntries htexts, mergeEntries_mergeEntries hpatch hentries⟩

theorem patchTable_of_atRest (hpath : path ≠ []) (hdoc : (object attributes).Settled)
    (h : AtRest path patch attributes) : patchTable path patch attributes = .ok attributes := by
  unfold AtRest at h
  unfold patchTable
  rw [nested?_eq_value? hpath]
  cases hx : (object attributes).value? (.ofNames path) with
  | none =>
      rw [hx] at h
      simp only [pure_bind, h]
      rfl
  | some x =>
      rw [hx] at h
      cases x with
      | object members =>
          obtain ⟨htexts, hmerged⟩ := h
          obtain ⟨entries, hentries⟩ := (exists_stringEntries_iff path).mpr htexts
          obtain rfl := eq_of_stringEntries hentries
          have hput : ∃ out, putNested path.dropLast (.object entries) path attributes = .ok out :=
            (exists_putNested_iff hpath).mpr (open_of_value? hx)
          obtain ⟨out, hout⟩ := hput
          obtain rfl := (put_of_putNested hpath hout).eq_of_value? hdoc.canonical hx
          refine Except.bind_eq_ok_iff.mpr ⟨entries, hentries, ?_⟩
          simp only [hmerged]
          exact hout
      | _ => exact h.elim

theorem atRest_congr (h : (object out).value? (.ofNames path) =
    (object attributes).value? (.ofNames path)) :
    AtRest path patch out ↔ AtRest path patch attributes := by
  rw [AtRest, h, AtRest]

end OneTable

namespace Table

variable {p : Patcher} {t : Table} {ts : List Table} {attributes out : Dict Json}

/-- What a patcher says about a table changes nothing any more. -/
def AtRest (t : Table) (p : Patcher) (attributes : Dict Json) : Prop :=
  ∀ patch, t.patch? p = some patch → WorkloadPatch.AtRest t.path patch attributes

theorem atRest_of_run (hsorted : ∀ (t : Table) patch, t.patch? p = some patch → patch.Sorted)
    (hdoc : (object attributes).Settled) (h : t.run p attributes = .ok out) :
    (object out).Settled ∧ t.AtRest p out := by
  unfold run patchTable? at h
  split at h
  · next hnone =>
    obtain rfl := Except.ok.inj h
    exact ⟨hdoc, fun patch hpatch => by rw [hnone] at hpatch; cases hpatch⟩
  · next patch hpatch =>
    obtain ⟨hsettled, hrest⟩ := atRest_of_patchTable t.path_ne_nil (hsorted t patch hpatch) hdoc h
    refine ⟨hsettled, fun patch' hpatch' => ?_⟩
    obtain rfl := Option.some.inj (hpatch.symm.trans hpatch')
    exact hrest

theorem run_of_atRest (hdoc : (object attributes).Settled) (h : t.AtRest p attributes) :
    t.run p attributes = .ok attributes := by
  unfold run patchTable?
  split
  · rfl
  · next patch hpatch => exact patchTable_of_atRest t.path_ne_nil hdoc (h patch hpatch)

/-- One table after the other comes to rest, and none is disturbed by those that follow. -/
theorem atRest_of_foldlM (hsorted : ∀ (t : Table) patch, t.patch? p = some patch → patch.Sorted)
    (hts : ts.Nodup) (hdoc : (object attributes).Settled)
    (h : ts.foldlM (run p) attributes = .ok out) :
    (object out).Settled ∧ ∀ t ∈ ts, t.AtRest p out := by
  induction ts generalizing attributes with
  | nil =>
      obtain rfl := Except.ok.inj h
      exact ⟨hdoc, nofun⟩
  | cons first rest ih =>
      obtain ⟨next, hnext, hlater⟩ := Except.bind_eq_ok_iff.mp h
      obtain ⟨hfirst, hnodup⟩ := List.nodup_cons.mp hts
      obtain ⟨hsettled, hrests⟩ := atRest_of_run hsorted hdoc hnext
      obtain ⟨hout, hall⟩ := ih hnodup hsettled hlater
      refine ⟨hout, List.forall_mem_cons.mpr ⟨fun patch hpatch => ?_, hall⟩⟩
      -- The tables that follow lie apart from the first one, which they leave at rest.
      refine (atRest_congr (value?_of_apart (fun t ht _ => apart ?_) hlater)).mpr
        (hrests patch hpatch)
      rintro rfl
      exact hfirst ht

theorem foldlM_of_atRest (hdoc : (object attributes).Settled)
    (h : ∀ t ∈ ts, t.AtRest p attributes) : ts.foldlM (run p) attributes = .ok attributes := by
  induction ts with
  | nil => rfl
  | cons first rest ih =>
      obtain ⟨hfirst, hrest⟩ := List.forall_mem_cons.mp h
      exact Except.bind_eq_ok_iff.mpr ⟨attributes, run_of_atRest hdoc hfirst, ih hrest⟩

end Table

section Containers

variable {id : String} {removals : List Variable} {c c' : Json} {items items' : List Json}
  {attributes out : Dict Json} {environment : Option (List Variable)}

theorem keepEntries_keepEntries (removals : List Variable) (entries : List Json) :
    keepEntries removals (keepEntries removals entries) = keepEntries removals entries := by
  rw [keepEntries, keepEntries, List.filter_filter]
  simp only [Bool.and_self]

theorem patchEnv_removals (removals : List Variable) (env : Option (List Json)) :
    patchEnv removals [] env = env.map (keepEntries removals) := rfl

theorem patchContainer_of_removals (h : patchContainer id removals [] c = .ok c') :
    patchContainer id removals [] c' = .ok c' := by
  obtain ⟨members, env, rfl, henv, rfl⟩ := exists_env_of_patchContainer h
  cases env with
  | none => exact patchContainer_object none henv
  | some entries =>
      rw [patchEnv_removals, Option.map_some, withEnv,
        patchContainer_object (some (keepEntries removals entries)) (Dict.get?_insert_self ..)]
      rw [patchEnv_removals, Option.map_some, keepEntries_keepEntries, withEnv, Dict.insert_insert]

theorem settled_of_patchContainer (hc : c.Settled) (h : patchContainer id removals [] c = .ok c') :
    c'.Settled := by
  obtain ⟨members, env, rfl, henv, rfl⟩ := exists_env_of_patchContainer h
  cases env with
  | none => exact hc
  | some entries =>
      have hentries := settled_array_iff.mp (hc.of_get? henv)
      refine hc.insert (settled_array_iff.mpr fun x hx => ?_) "env"
      exact hentries x (List.mem_of_mem_filter hx)

theorem patchContainers_of_removals (h : patchContainers id removals [] items = .ok items') :
    patchContainers id removals [] items' = .ok items' := by
  rw [patchContainers_eq_ok_iff] at h
  rw [patchContainers_eq_ok_iff, List.forall₂_same]
  intro c' hc'
  obtain ⟨c, -, hc⟩ := exists_mem_of_forall₂ h hc'
  exact patchContainer_of_removals hc

theorem settled_of_patchContainers (hitems : (array items).Settled)
    (h : patchContainers id removals [] items = .ok items') : (array items').Settled := by
  rw [patchContainers_eq_ok_iff] at h
  refine settled_array_iff.mpr fun c' hc' => ?_
  obtain ⟨c, hmem, hc⟩ := exists_mem_of_forall₂ h hc'
  exact settled_of_patchContainer (settled_array_iff.mp hitems c hmem) hc

theorem patchVariables_of_removals (hdoc : (object attributes).Settled)
    (honly : ∀ es, environment = some es → ∀ e ∈ es, e.value = removalValue)
    (h : patchVariables id environment attributes = .ok out) :
    (object out).Settled ∧ patchVariables id environment out = .ok out := by
  cases environment with
  | none =>
      obtain rfl := Except.ok.inj h
      exact ⟨hdoc, rfl⟩
  | some es =>
      have hnone : (es.filter fun e => !e.isRemoval) = [] := by
        simpa [Variable.isRemoval] using honly es rfl
      rw [patchVariables, hnone] at h
      obtain ⟨items, items', hitems, hpatched, hput⟩ := exists_put_of_patchContainersAt h
      have hsettled := hput.settled
        (settled_of_patchContainers (hdoc.of_value? hitems) hpatched) hdoc
      refine ⟨hsettled, ?_⟩
      rw [patchVariables, hnone]
      exact patchContainersAt_eq_self (List.cons_ne_nil _ _) hsettled.canonical hput.value?
        (patchContainers_of_removals hpatched)

end Containers

end WorkloadPatch

namespace Patcher

open WorkloadPatch

/-- A patcher that adds no variables changes a workload only once. -/
theorem patchStructure_again {p : Patcher} {w w' : Resource}
    (hsorted : ∀ (t : Table) patch, t.patch? p = some patch → patch.Sorted)
    (honly : ∀ es, p.environment = some es → ∀ e ∈ es, e.value = removalValue)
    (hw : (object w.attributes).canonical = object w.attributes)
    (h : p.patchStructure w = .ok w') : p.patchStructure w' = .ok w' := by
  obtain ⟨tables, attributes, htables, hvariables, rfl⟩ := patchStructure_eq_ok_iff.mp h
  rw [patchTables_eq_foldlM] at htables
  obtain ⟨htablesSettled, hrest⟩ := Table.atRest_of_foldlM hsorted Table.nodup_all
    (settled_normalize hw) htables
  obtain ⟨hsettled, hagain⟩ := patchVariables_of_removals htablesSettled honly hvariables
  -- The containers lie apart from the tables, so that the second run finds all of it settled.
  have hrest' : ∀ t ∈ Table.all, t.AtRest p attributes := fun t ht patch hpatch =>
    (atRest_congr (agreesApart_of_patchVariables hvariables _ t.apart_containers)).mpr
      (hrest t ht patch hpatch)
  refine patchStructure_eq_ok_iff.mpr ⟨attributes, attributes, ?_, hagain, rfl⟩
  have hnormal : normalizeMembers attributes = attributes := Json.object.inj hsettled.normal
  rw [hnormal, patchTables_eq_foldlM]
  exact Table.foldlM_of_atRest hsettled hrest'

def clearing : Patcher :=
  { labels := some [("team", "a"), ("tier", removalValue)], podLabels := none,
    annotations := none, podAnnotations := some [("note", removalValue)],
    environment := some [⟨"LEGACY", removalValue, none⟩], attributePatches := none }

def withLabel (environments : List (Option (List Json))) : Dict Json :=
  ("metadata", .object [("labels", .object [("team", .string "a")])]) ::
    (deployed environments).attributes

def cleared : Resource :=
  { beforeMoving with attributes := withLabel [some [rated (.int 2)], none] }

theorem clearing_beforeMoving : clearing.patchStructure beforeMoving = .ok cleared := by
  refine patchStructure_eq_ok_iff.mpr
    ⟨withLabel [some [legacy, rated (.int 2)], none], _, ?_, ?_, rfl⟩
  · simp only [patchTables, patchTable?, clearing, patchTable, WorkloadPatch.labels,
      WorkloadPatch.podAnnotations, nested?, putNested]
    rfl
  · simp only [clearing, patchVariables, containers, patchContainersAt]
    rfl

theorem patchStructure_again_of_clearing : clearing.patchStructure cleared = .ok cleared := by
  refine patchStructure_again ?_ ?_ rfl clearing_beforeMoving
  · rintro (_ | _ | _ | _) patch ⟨⟩
    · exact List.pairwise_pair.mpr (by decide)
    · exact List.pairwise_singleton ..
  · rintro es ⟨⟩ e he
    rw [List.mem_singleton.mp he]

end Patcher

end ResourceGraph
