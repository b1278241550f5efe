import ResourceGraph.Proofs.Patcher.Numbers

namespace ResourceGraph

open Json

namespace WorkloadPatch

variable {id : String} {removals additions es : List Variable} {c c' : Json}
  {items items' : List Json} {env env' : Option (List Json)} {members : Dict Json}

def added (es : List Variable) : List Json :=
  (es.filter fun e => e.value ≠ removalValue).map Variable.toJson

def kept (es : List Variable) (entries : List Json) : List Json :=
  entries.filter fun x => ∀ e ∈ es, e.value = removalValue → entryName? x ≠ some e.name

/-- A container before and after variables were patched, with its environments. -/
structure Reconfigured (es : List Variable) (env env' : Option (List Json)) (c c' : Json) :
    Prop where
  objects : (∃ members, c = .object members) ∧ ∃ members, c' = .object members
  before : c.step? (.member "env") = env.map array
  after : c'.step? (.member "env") = env'.map array
  /-- new entries in their order, then old ones in theirs -/
  entries : env'.getD [] = added es ++ (kept es (env.getD [])).map normalize
  absent_iff : env' = none ↔ env = none ∧ ∀ e ∈ es, e.value = removalValue
  others : ∀ s, s ≠ .member "env" → c'.step? s = (c.step? s).map normalize

@[simp] theorem entryName?_normalize (x : Json) : entryName? x.normalize = entryName? x := by
  cases x with
  | object members =>
      change (Dict.get? (normalizeMembers members) "name").bind asString? =
        (Dict.get? members "name").bind asString?
      rw [normalizeMembers_eq_mapValues, Dict.get?_mapValues]
      cases Dict.get? members "name" with
      | none => rfl
      | some name => exact asString?_normalize name
  | _ => rfl

theorem kept_map_normalize (es : List Variable) (entries : List Json) :
    kept es (entries.map normalize) = (kept es entries).map normalize := by
  rw [kept, List.filter_map, kept]
  simp only [Function.comp_def, entryName?_normalize]

theorem keepEntries_eq_kept (es : List Variable) (entries : List Json) :
    keepEntries (es.filter Variable.isRemoval) entries = kept es entries := by
  refine List.filter_congr fun x _ => ?_
  cases entryName? x with
  | none => simp
  | some name =>
      rw [Bool.eq_iff_iff]
      simp only [Bool.not_eq_true', List.any_eq_false, List.mem_filter, Variable.isRemoval,
        beq_iff_eq, and_imp, decide_eq_true_eq, ne_eq, Option.some.injEq]
      exact forall₃_congr fun e _ _ => not_congr eq_comm

theorem getD_patchEnv (es : List Variable) (env : Option (List Json)) :
    (patchEnv (es.filter Variable.isRemoval) (es.filter fun e => !e.isRemoval) env).getD [] =
      added es ++ kept es (env.getD []) := by
  have hkept : (env.map (keepEntries (es.filter Variable.isRemoval))).getD [] =
      kept es (env.getD []) := by
    cases env with
    | none => rfl
    | some entries => exact keepEntries_eq_kept es entries
  have hadded : (es.filter fun e => !e.isRemoval).map Variable.toJson = added es := by
    rw [added]
    congr 1
    refine List.filter_congr fun e _ => ?_
    rw [Bool.eq_iff_iff]
    simp [Variable.isRemoval]
  rw [patchEnv]
  split
  · next hnone =>
    rw [hkept, ← hadded, List.isEmpty_iff.mp hnone]
    rfl
  · rw [Option.getD_some, hkept, hadded]

theorem patchEnv_eq_none_iff (removals additions : List Variable) (env : Option (List Json)) :
    patchEnv removals additions env = none ↔ env = none ∧ additions = [] := by
  rw [patchEnv]
  split <;> simp_all

/-- No entry that is added holds the text that means removal. -/
theorem value_of_mem_added {x : Json} (hx : x ∈ added es) :
    x.step? (.member "value") ≠ some (.string removalValue) := by
  obtain ⟨e, he, rfl⟩ := List.mem_map.mp hx
  have hvalue : e.value ≠ removalValue := by simpa using (List.mem_filter.mp he).2
  cases hfrom : e.valueFrom <;> by_cases hempty : e.value.isEmpty = true <;>
    simp [Variable.toJson, record, field, fieldUnless, fieldOf, hfrom, hempty, step?,
      Dict.get?_cons, hvalue]

theorem exists_env_of_normalizeMembers
    (h : Dict.get? (normalizeMembers members) "env" = env'.map array) :
    ∃ env : Option (List Json),
      Dict.get? members "env" = env.map array ∧ env' = env.map (List.map normalize) := by
  rw [normalizeMembers_eq_mapValues, Dict.get?_mapValues] at h
  cases hget : Dict.get? members "env" with
  | none =>
      rw [hget] at h
      exact ⟨none, rfl, Option.map_eq_none_iff.mp h.symm⟩
  | some x =>
      rw [hget] at h
      obtain ⟨normal, rfl, hx⟩ := Option.map_eq_some_iff.mp h.symm
      obtain ⟨entries, rfl, rfl⟩ := normalize_eq_array_iff.mp hx.symm
      exact ⟨some entries, rfl, rfl⟩

theorem reconfigured_of_patchContainer
    (h : patchContainer id (es.filter Variable.isRemoval) (es.filter fun e => !e.isRemoval)
      c.normalize = .ok c') : ∃ env env', Reconfigured es env env' c c' := by
  obtain ⟨normal, env₀, hnormal, hread, rfl⟩ := exists_env_of_patchContainer h
  obtain ⟨members, rfl, rfl⟩ := normalize_eq_object_iff.mp hnormal
  obtain ⟨env, henv, rfl⟩ := exists_env_of_normalizeMembers hread
  have hadditions : (es.filter fun e => !e.isRemoval) = [] ↔ ∀ e ∈ es, e.value = removalValue := by
    simp [Variable.isRemoval]
  have hnone := patchEnv_eq_none_iff (es.filter Variable.isRemoval)
    (es.filter fun e => !e.isRemoval) (env.map (List.map normalize))
  refine ⟨env, _, ⟨⟨members, rfl⟩, _, rfl⟩, henv, step?_withEnv_self fun h => ?_, ?_, ?_,
    fun s hs => ?_⟩
  · rw [hread, (hnone.mp h).1, Option.map_none]
  · have hlist : (env.map (List.map normalize)).getD [] = (env.getD []).map normalize := by
      cases env <;> rfl
    rw [getD_patchEnv, hlist, kept_map_normalize]
  · rw [hnone, hadditions, Option.map_eq_none_iff]
  · rw [step?_withEnv_of_ne hs]
    exact step?_normalize s (.object members)

end WorkloadPatch

namespace Patcher

open WorkloadPatch

/-- Where a patcher has variables, the containers of the workload keep their number and order. The
environment of each starts with the entries that the variables add, none of which means removal, and
goes on with the normalised old entries that no variable removes. It is missing only where it was
missing and nothing is added. All other fields are normalised. -/
theorem patchStructure_environments {p : Patcher} {w w' : Resource} {es : List Variable}
    (h : p.patchStructure w = .ok w') (hes : p.environment = some es) :
    ∃ items items',
      (object w.attributes).value? (.ofNames containers) = some (.array items) ∧
      (object w'.attributes).value? (.ofNames containers) = some (.array items') ∧
      List.Forall₂ (fun c c' => ∃ env env', Reconfigured es env env' c c') items items' ∧
      ∀ x ∈ added es, x.step? (.member "value") ≠ some (.string removalValue) := by
  obtain ⟨tables, attributes, htables, hvariables, rfl⟩ := patchStructure_eq_ok_iff.mp h
  rw [patchTables_eq_foldlM] at htables
  rw [hes, patchVariables] at hvariables
  obtain ⟨normal, items', hnormal, hpatched, hput⟩ := exists_put_of_patchContainersAt hvariables
  have hold : ((object w.attributes).value? (.ofNames containers)).map normalize =
      some (.array normal) := by
    rw [← value?_normalize, Json.normalize, ← hnormal,
      Table.value?_of_apart (fun t _ _ => ?_) htables]
    exact t.apart_containers.symm
  obtain ⟨x, hx, hxnormal⟩ := Option.map_eq_some_iff.mp hold
  obtain ⟨items, rfl, rfl⟩ := normalize_eq_array_iff.mp hxnormal
  refine ⟨items, items', hx, hput.value?, ?_, fun x hx => value_of_mem_added hx⟩
  rw [patchContainers_eq_ok_iff, List.forall₂_map_left_iff] at hpatched
  exact hpatched.imp fun c c' => reconfigured_of_patchContainer

def containerOf (env : Option (List Json)) : Json :=
  .object (withEnv [("image", .string "nginx")] env)

def deployed (environments : List (Option (List Json))) : Resource :=
  .new "api" .kubernetes
    [("spec", .object [("template", .object [("spec", .object [("containers",
      .array (environments.map containerOf))])])])]

def rated (n : Number) : Json := .object [("name", .string "RATE"), ("value", .number n)]

def legacy : Json := .object [("name", .string "LEGACY"), ("value", .string "old")]

def moved : List Variable := [⟨"HOST", "db", none⟩, ⟨"LEGACY", removalValue, none⟩]

def moving : Patcher :=
  { labels := none, podLabels := none, annotations := none, podAnnotations := none,
    environment := some moved, attributePatches := none }

def two : Double := ⟨false, 2 ^ 52, -51⟩

def beforeMoving : Resource := deployed [some [legacy, rated (.float two)], none]

def afterMoving : Resource := deployed [some (added moved ++ [rated (.int 2)]), some (added moved)]

theorem moving_beforeMoving : moving.patchStructure beforeMoving = .ok afterMoving := by
  simp only [patchStructure, patchTables, patchTable?, moving, patchVariables, containers,
    patchContainersAt]
  rfl

theorem patchStructure_environments_of_two :
    ∃ items items',
      (object beforeMoving.attributes).value? (.ofNames containers) = some (.array items) ∧
      (object afterMoving.attributes).value? (.ofNames containers) = some (.array items') ∧
      List.Forall₂ (fun c c' => ∃ env env', Reconfigured moved env env' c c') items items' ∧
      ∀ x ∈ added moved, x.step? (.member "value") ≠ some (.string removalValue) :=
  patchStructure_environments moving_beforeMoving rfl

/-- An entry that is kept is normalised with all else, so that it may differ from the entry that
there was. -/
theorem not_entries_kept_of_decimal :
    two.Canonical ∧ moving.patchStructure beforeMoving = .ok afterMoving ∧
      (object beforeMoving.attributes).value? (environmentAt 0) =
        some (.array [legacy, rated (.float two)]) ∧
      ∃ entries,
        (object afterMoving.attributes).value? (environmentAt 0) = some (.array entries) ∧
        entries ≠ added moved ++ kept moved [legacy, rated (.float two)] := by
  refine ⟨by decide, moving_beforeMoving, rfl, added moved ++ [rated (.int 2)], rfl, ?_⟩
  decide

end Patcher

end ResourceGraph
