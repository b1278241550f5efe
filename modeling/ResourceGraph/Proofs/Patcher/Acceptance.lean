import ResourceGraph.Proofs.Patcher.Environment

namespace ResourceGraph

open Json

namespace WorkloadPatch

section OneTable

variable {path : List String} {patch : Dict String} {attributes out members : Dict Json}

/-- A table takes a patch if it holds only texts or null stands in its place. Where there is
nothing, the patch only removes, or the way to the table is open. -/
def Fits (path : List String) (patch : Dict String) (attributes : Dict Json) : Prop :=
  match (object attributes).value? (.ofNames path) with
  | none => (∀ e ∈ patch, e.2 = removalValue) ∨ Open path attributes
  | some .null => True
  | some (.object members) => ∀ e ∈ members, ∃ s, e.2 = .string s
  | some _ => False

theorem exists_stringEntries_iff (path : List String) :
    (∃ entries, stringEntries path members = .ok entries) ↔
      ∀ e ∈ members, ∃ s, e.2 = .string s := by
  induction members with
  | nil => exact iff_of_true ⟨[], rfl⟩ nofun
  | cons e rest ih =>
      obtain ⟨k, v⟩ := e
      unfold stringEntries
      rw [List.forall_mem_cons, ← ih]
      cases v with
      | string s =>
          constructor
          · rintro ⟨entries, h⟩
            obtain ⟨entries', hrest, -⟩ := Except.map_eq_ok_iff.mp h
            exact ⟨⟨s, rfl⟩, entries', hrest⟩
          · rintro ⟨-, entries, hrest⟩
            exact ⟨_, Except.map_eq_ok_iff.mpr ⟨entries, hrest, rfl⟩⟩
      | _ => simp

theorem mergeEntries_nil_iff (hpatch : patch.Sorted) :
    mergeEntries [] patch = [] ↔ ∀ e ∈ patch, e.2 = removalValue := by
  constructor
  · intro hempty e he
    by_contra hvalue
    have hmerged : (mergeEntries [] patch).get? e.1 = some (.string e.2) := by
      rw [get?_mergeEntries hpatch, hpatch.get?_of_mem he]
      exact if_neg hvalue
    rw [hempty] at hmerged
    cases hmerged
  · exact mergeEntries_of_removals

theorem exists_patchTable_iff (hpath : path ≠ []) (hpatch : patch.Sorted) :
    (∃ out, patchTable path patch attributes = .ok out) ↔ Fits path patch attributes := by
  unfold patchTable Fits
  rw [nested?_eq_value? hpath]
  cases hx : (object attributes).value? (.ofNames path) with
  | none =>
      simp only [pure_bind, Option.isNone_none, Bool.true_and, List.isEmpty_iff,
        ← mergeEntries_nil_iff hpatch]
      split
      · next hempty => exact iff_of_true ⟨attributes, rfl⟩ (.inl hempty)
      · next hne => rw [exists_putNested_iff hpath, or_iff_right hne]
  | some x =>
      have hput : ∀ value, ∃ out, putNested path.dropLast value path attributes = .ok out :=
        fun value => (exists_putNested_iff hpath).mpr (open_of_value? hx)
      cases x with
      | null =>
          simp only [pure_bind]
          exact iff_of_true (hput _) trivial
      | object members =>
          simp only [← exists_stringEntries_iff path]
          constructor
          · rintro ⟨out, h⟩
            obtain ⟨entries, hentries, -⟩ := Except.bind_eq_ok_iff.mp h
            exact ⟨entries, hentries⟩
          · rintro ⟨entries, hentries⟩
            obtain ⟨out, hout⟩ := hput (.object (mergeEntries entries patch))
            exact ⟨out, Except.bind_eq_ok_iff.mpr ⟨entries, hentries, hout⟩⟩
      | _ => exact iff_of_false nofun id

theorem open_normalizeMembers_iff :
    Open path (normalizeMembers attributes) ↔ Open path attributes := by
  refine forall₃_congr fun location _ _ => ?_
  rw [← Json.normalize, value?_normalize]
  cases (object attributes).value? location with
  | none => exact iff_of_true nofun nofun
  | some y =>
      simp only [Option.map_some, Option.some.injEq, forall_eq', normalize_eq_object_iff]
      exact ⟨fun ⟨_, old, hold, _⟩ => ⟨old, hold⟩, fun ⟨old, hold⟩ => ⟨_, old, hold, rfl⟩⟩

theorem fits_normalizeMembers_iff :
    Fits path patch (normalizeMembers attributes) ↔ Fits path patch attributes := by
  unfold Fits
  rw [← Json.normalize, value?_normalize]
  cases (object attributes).value? (.ofNames path) with
  | none => exact or_congr_right open_normalizeMembers_iff
  | some x =>
      cases x with
      | object members =>
          simp only [Option.map_some, Json.normalize, normalizeMembers_eq_mapValues, Dict.mapValues,
            List.forall_mem_map, normalize_eq_string_iff]
      | _ => rfl

theorem fits_congr (hvalue : (object out).value? (.ofNames path) =
    (object attributes).value? (.ofNames path)) (hopen : Open path out ↔ Open path attributes) :
    Fits path patch out ↔ Fits path patch attributes := by
  unfold Fits
  rw [hvalue, hopen]

end OneTable

namespace Table

variable {p : Patcher} {t t' : Table} {ts : List Table} {attributes out : Dict Json}

def Fits (t : Table) (p : Patcher) (attributes : Dict Json) : Prop :=
  ∀ patch, t.patch? p = some patch → WorkloadPatch.Fits t.path patch attributes

/-- What one table takes or refuses is the same before and after another one was patched. -/
theorem fits_of_run (h : t.run p attributes = .ok out) (hne : t' ≠ t) :
    t'.Fits p out ↔ t'.Fits p attributes := by
  refine forall₂_congr fun patch _ => ?_
  rcases put_of_run h with rfl | ⟨-, value, hput⟩
  · rfl
  · have hapart := apart hne.symm
    exact fits_congr (hput.agreesApart _ hapart) (hput.open_iff hapart)

section Sorted

variable (hsorted : ∀ (t : Table) patch, t.patch? p = some patch → patch.Sorted)

include hsorted

theorem exists_run_iff : (∃ out, t.run p attributes = .ok out) ↔ t.Fits p attributes := by
  unfold run patchTable? Fits
  split
  · next hnone => exact iff_of_true ⟨attributes, rfl⟩ (by simp [hnone])
  · next patch hpatch =>
    rw [exists_patchTable_iff t.path_ne_nil (hsorted t patch hpatch), hpatch]
    simp

theorem exists_foldlM_iff (hts : ts.Nodup) :
    (∃ out, ts.foldlM (run p) attributes = .ok out) ↔ ∀ t ∈ ts, t.Fits p attributes := by
  induction ts generalizing attributes with
  | nil => exact iff_of_true ⟨attributes, rfl⟩ nofun
  | cons first rest ih =>
      obtain ⟨hfirst, hrest⟩ := List.nodup_cons.mp hts
      -- The condition on the other tables may be read before the first one is patched.
      have hnext : ∀ next, first.run p attributes = .ok next →
          ((∃ out, rest.foldlM (run p) next = .ok out) ↔ ∀ t ∈ rest, t.Fits p attributes) := by
        intro next hnext
        rw [ih hrest]
        exact forall₂_congr fun t ht => fits_of_run hnext fun he => hfirst (he ▸ ht)
      rw [List.forall_mem_cons, ← exists_run_iff hsorted]
      constructor
      · rintro ⟨out, h⟩
        obtain ⟨next, hrun, h⟩ := Except.bind_eq_ok_iff.mp h
        exact ⟨⟨next, hrun⟩, (hnext next hrun).mp ⟨out, h⟩⟩
      · rintro ⟨⟨next, hrun⟩, hfits⟩
        obtain ⟨out, h⟩ := (hnext next hrun).mpr hfits
        exact ⟨out, Except.bind_eq_ok_iff.mpr ⟨next, hrun, h⟩⟩

end Sorted

end Table

section Containers

variable {id : String} {removals additions : List Variable} {c : Json} {items : List Json}
  {attributes : Dict Json} {environment : Option (List Variable)}

/-- A container takes variables if it is an object without an environment or with a list. -/
def TakesVariables (c : Json) : Prop :=
  (∃ members, c = .object members) ∧
    (c.step? (.member "env") = none ∨ ∃ entries, c.step? (.member "env") = some (.array entries))

/-- The containers of a workload are a list, and each of them takes variables. -/
def HasContainers (attributes : Dict Json) : Prop :=
  ∃ items, (object attributes).value? (.ofNames containers) = some (.array items) ∧
    ∀ c ∈ items, TakesVariables c

theorem exists_patchContainer_iff (id : String) (removals additions : List Variable) :
    (∃ c', patchContainer id removals additions c = .ok c') ↔ TakesVariables c := by
  constructor
  · rintro ⟨c', h⟩
    obtain ⟨members, env, rfl, henv, -⟩ := exists_env_of_patchContainer h
    refine ⟨⟨members, rfl⟩, ?_⟩
    cases env with
    | none => exact .inl henv
    | some entries => exact .inr ⟨entries, henv⟩
  · rintro ⟨⟨members, rfl⟩, henv | ⟨entries, henv⟩⟩
    · exact ⟨_, patchContainer_object none henv⟩
    · exact ⟨_, patchContainer_object (some entries) henv⟩

theorem exists_patchContainers_iff :
    (∃ items', patchContainers id removals additions items = .ok items') ↔
      ∀ c ∈ items, TakesVariables c := by
  simp only [patchContainers_eq_ok_iff, ← exists_patchContainer_iff id removals additions]
  induction items with
  | nil => exact iff_of_true ⟨[], .nil⟩ nofun
  | cons c rest ih =>
      rw [List.forall_mem_cons, ← ih]
      simp only [List.forall₂_cons_left_iff]
      constructor
      · rintro ⟨_, c', rest', hc, hrest, -⟩
        exact ⟨⟨c', hc⟩, rest', hrest⟩
      · rintro ⟨⟨c', hc⟩, rest', hrest⟩
        exact ⟨_, c', rest', hc, hrest, rfl⟩

theorem exists_patchVariables_iff :
    (∃ out, patchVariables id environment attributes = .ok out) ↔
      (environment.isSome → HasContainers attributes) := by
  cases environment with
  | none => exact iff_of_true ⟨attributes, rfl⟩ nofun
  | some es =>
      simp only [patchVariables, Option.isSome_some, true_imp_iff]
      constructor
      · rintro ⟨out, h⟩
        obtain ⟨items, items', hitems, hpatched, -⟩ := exists_put_of_patchContainersAt h
        exact ⟨items, hitems, exists_patchContainers_iff.mp ⟨items', hpatched⟩⟩
      · rintro ⟨items, hitems, htake⟩
        obtain ⟨items', hpatched⟩ := exists_patchContainers_iff.mpr htake
        exact exists_patchContainersAt (List.cons_ne_nil _ _) hitems hpatched

theorem takesVariables_normalize_iff : TakesVariables c.normalize ↔ TakesVariables c := by
  refine and_congr ?_ (or_congr ?_ ?_)
  · simp only [normalize_eq_object_iff]
    exact ⟨fun ⟨_, old, hold, _⟩ => ⟨old, hold⟩, fun ⟨old, hold⟩ => ⟨_, old, hold, rfl⟩⟩
  · rw [step?_normalize, Option.map_eq_none_iff]
  · simp only [step?_normalize, Option.map_eq_some_iff, normalize_eq_array_iff]
    exact ⟨fun ⟨_, _, hx, old, hold, _⟩ => ⟨old, hold ▸ hx⟩,
      fun ⟨old, hold⟩ => ⟨_, _, hold, old, rfl, rfl⟩⟩

theorem hasContainers_normalizeMembers_iff (attributes : Dict Json) :
    HasContainers (normalizeMembers attributes) ↔ HasContainers attributes := by
  unfold HasContainers
  rw [← Json.normalize, value?_normalize]
  simp only [Option.map_eq_some_iff, normalize_eq_array_iff]
  constructor
  · rintro ⟨_, ⟨_, hx, items, rfl, rfl⟩, htake⟩
    refine ⟨items, hx, fun c hc => ?_⟩
    exact takesVariables_normalize_iff.mp (htake c.normalize (List.mem_map_of_mem hc))
  · rintro ⟨items, hx, htake⟩
    refine ⟨items.map normalize, ⟨_, hx, items, rfl, rfl⟩, List.forall_mem_map.mpr fun c hc => ?_⟩
    exact takesVariables_normalize_iff.mpr (htake c hc)

end Containers

end WorkloadPatch

namespace Patcher

open WorkloadPatch

def FitsTables (p : Patcher) (w : Resource) : Prop := ∀ t : Table, t.Fits p w.attributes

/-- The containers of a workload take the variables of a patcher that has some, or an empty list. -/
def FitsContainers (p : Patcher) (w : Resource) : Prop :=
  p.environment.isSome → HasContainers w.attributes

section Steps

variable {p : Patcher} {w : Resource} {tables : Dict Json}

theorem exists_patchTables_iff
    (hsorted : ∀ (t : Table) patch, t.patch? p = some patch → patch.Sorted) :
    (∃ out, patchTables p (normalizeMembers w.attributes) = .ok out) ↔ p.FitsTables w := by
  rw [patchTables_eq_foldlM, Table.exists_foldlM_iff hsorted Table.nodup_all]
  constructor
  · exact fun h t patch hpatch => fits_normalizeMembers_iff.mp (h t t.mem_all patch hpatch)
  · exact fun h t _ patch hpatch => fits_normalizeMembers_iff.mpr (h t patch hpatch)

theorem exists_patchVariables_iff_fits
    (h : patchTables p (normalizeMembers w.attributes) = .ok tables) :
    (∃ out, patchVariables w.id p.environment tables = .ok out) ↔ p.FitsContainers w := by
  rw [patchTables_eq_foldlM] at h
  have hsame : (object tables).value? (.ofNames containers) =
      (object (normalizeMembers w.attributes)).value? (.ofNames containers) :=
    Table.value?_of_apart (fun t _ _ => t.apart_containers.symm) h
  rw [exists_patchVariables_iff]
  refine imp_congr_right fun _ => ?_
  rw [← hasContainers_normalizeMembers_iff w.attributes, HasContainers, hsame, HasContainers]

end Steps

/-- A patcher succeeds exactly on the workloads whose tables and containers fit. If a table does not
fit the workload is no such object, and only if all of them do, the containers are to blame. -/
theorem patchStructure_outcome {p : Patcher} (w : Resource)
    (hsorted : ∀ (t : Table) patch, t.patch? p = some patch → patch.Sorted) :
    ((∃ w', p.patchStructure w = .ok w') ↔ p.FitsTables w ∧ p.FitsContainers w) ∧
    ((∃ fault, p.patchStructure w = .error (.unstructured w.id fault)) ↔ ¬p.FitsTables w) ∧
    ((∃ fault, p.patchStructure w = .error (.patch fault)) ↔
      p.FitsTables w ∧ ¬p.FitsContainers w) := by
  have htables := exists_patchTables_iff (w := w) hsorted
  cases hrun : patchTables p (normalizeMembers w.attributes) with
  | error fault =>
      have hout : p.patchStructure w = .error (.unstructured w.id fault) := by
        rw [patchStructure, hrun]
        rfl
      have hnot : ¬p.FitsTables w := by simp [← htables, hrun]
      simp [hout, hnot]
  | ok tables =>
      have hfits : p.FitsTables w := htables.mp ⟨tables, hrun⟩
      have hcontainers := exists_patchVariables_iff_fits hrun
      cases hpatched : patchVariables w.id p.environment tables with
      | error fault =>
          have hout : p.patchStructure w = .error (.patch fault) := by
            refine Except.bind_eq_error_iff.mpr (.inr ⟨tables, ?_, ?_⟩)
            · exact Except.mapError_eq_ok_iff.mpr hrun
            · refine Except.bind_eq_error_iff.mpr (.inl ?_)
              exact Except.mapError_eq_error_iff.mpr ⟨fault, hpatched, rfl⟩
          have hnot : ¬p.FitsContainers w := by simp [← hcontainers, hpatched]
          simp [hout, hfits, hnot]
      | ok attributes =>
          have hout : p.patchStructure w = .ok { w with attributes } :=
            patchStructure_eq_ok_iff.mpr ⟨tables, attributes, hrun, hpatched, rfl⟩
          have hmatch : p.FitsContainers w := hcontainers.mp ⟨attributes, hpatched⟩
          simp [hout, hfits, hmatch]

def podless (labels : Json) : Resource :=
  .new "api" .kubernetes [("metadata", .object [("labels", labels)])]

theorem patchStructure_outcome_of_each :
    (∃ w', configuring.patchStructure (listening [] [] (.int 8080)) = .ok w') ∧
    (∃ fault, configuring.patchStructure (podless (.array [.string "app"])) =
      .error (.unstructured "api" fault)) ∧
    ∃ fault, configuring.patchStructure (podless .null) = .error (.patch fault) := by
  have hsorted : ∀ (t : Table) patch, t.patch? configuring = some patch → patch.Sorted := by
    rintro (_ | _ | _ | _) patch ⟨⟩
    exact List.pairwise_singleton ..
  have houtcome := fun w => patchStructure_outcome (p := configuring) w hsorted
  have honly : ∀ {w : Resource}, configuring.FitsTables w ↔
      WorkloadPatch.Fits WorkloadPatch.labels [("team", "a")] w.attributes := by
    intro w
    constructor
    · exact fun h => h .labels _ rfl
    · rintro h (_ | _ | _ | _) patch ⟨⟩
      exact h
  have hnone : ∀ labels, ¬configuring.FitsContainers (podless labels) := by
    rintro labels h
    obtain ⟨items, hitems, -⟩ := h rfl
    cases hitems
  refine ⟨(houtcome _).1.mpr ⟨honly.mpr nofun, fun _ => ?_⟩, (houtcome _).2.1.mpr ?_,
    (houtcome _).2.2.mpr ⟨honly.mpr trivial, hnone _⟩⟩
  · refine ⟨_, rfl, fun c hc => ?_⟩
    rw [List.mem_singleton.mp hc]
    exact ⟨⟨_, rfl⟩, .inr ⟨[], rfl⟩⟩
  · exact fun h => honly.mp h

end Patcher

end ResourceGraph
