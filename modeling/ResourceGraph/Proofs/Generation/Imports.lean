import Mathlib.Data.List.Forall2
import ResourceGraph.Proofs.Generation.Isolation
import ResourceGraph.Workspace.Effective

namespace ResourceGraph

variable {σ : Type}

namespace Imports

/-- A configuration maps an id to a target. -/
def Declares (config : Config) (id target : String) : Prop :=
  ∃ entries, config.stringMap member = .ok entries ∧ (id, target) ∈ entries

theorem not_declares_nil (id target : String) : ¬ Declares [] id target := by
  rintro ⟨entries, hentries, hmem⟩
  obtain rfl := Except.ok.inj hentries
  exact nomatch hmem

theorem get?_addEntries_iff {module : String} {imported entries merged : Dict String}
    (h : addEntries module imported entries = .ok merged) (id target : String) :
    merged.get? id = some target ↔ imported.get? id = some target ∨ (id, target) ∈ entries := by
  induction entries generalizing imported with
  | nil =>
      obtain rfl := Except.ok.inj h
      simp
  | cons entry rest ih =>
      obtain ⟨id', target'⟩ := entry
      rw [addEntries] at h
      rw [List.mem_cons, Prod.mk.injEq]
      cases hknown : imported.get? id' with
      | none =>
          rw [hknown] at h
          rw [ih h, Dict.get?_insert]
          by_cases hid : id = id'
          · subst hid
            simp [hknown, eq_comm]
          · simp [hid]
      | some known =>
          simp only [hknown] at h
          -- An id that is known already must come with the same target.
          split at h
          · next hsame =>
            subst hsame
            rw [ih h]
            constructor
            · rintro (hold | hrest)
              · exact .inl hold
              · exact .inr (.inr hrest)
            · rintro (hold | ⟨rfl, rfl⟩ | hrest)
              · exact .inl hold
              · exact .inl hknown
              · exact .inr hrest
          · exact nomatch h

theorem get?_addModules_iff {imported merged : Dict String} {configs : Dict Config}
    (h : addModules imported configs = .ok merged) (id target : String) :
    merged.get? id = some target ↔
      imported.get? id = some target ∨ ∃ e ∈ configs, Declares e.2 id target := by
  induction configs generalizing imported with
  | nil =>
      obtain rfl := Except.ok.inj h
      simp
  | cons e rest ih =>
      obtain ⟨module, config⟩ := e
      obtain ⟨entries, hentries, h⟩ := Except.bind_eq_ok_iff.mp h
      obtain ⟨between, hbetween, h⟩ := Except.bind_eq_ok_iff.mp h
      have hdeclares : Declares config id target ↔ (id, target) ∈ entries := by
        rw [Declares, Except.mapError_eq_ok_iff.mp hentries]
        simp
      rw [ih h, get?_addEntries_iff hbetween, or_assoc, List.exists_mem_cons_iff, hdeclares]

end Imports

theorem Workspace.exists_declares_iff {project : String} {modules : Dict ModuleBlocks}
    {configs : Dict Config} (h : effectiveConfigs project modules = .ok configs)
    (id target : String) :
    (∃ e ∈ configs, Imports.Declares e.2 id target) ↔
      ∃ e ∈ modules, ∃ config, e.2.effective e.1 project = .ok config ∧
        Imports.Declares config id target := by
  induction modules generalizing configs with
  | nil =>
      obtain rfl := Except.ok.inj h
      simp
  | cons e rest ih =>
      obtain ⟨name, blocks⟩ := e
      obtain ⟨config, hconfig, h⟩ := Except.bind_eq_ok_iff.mp h
      obtain ⟨others, hothers, h⟩ := Except.bind_eq_ok_iff.mp h
      have hfirst : (∃ config', blocks.effective name project = .ok config' ∧
          Imports.Declares config' id target) ↔ Imports.Declares config id target := by
        rw [hconfig]
        simp
      rw [List.exists_mem_cons_iff, ← ih hothers, hfirst, ← Except.pure_eq_ok_iff.mp h]
      -- An empty configuration is left out, but it declares nothing either.
      split
      · next hempty =>
        rw [List.isEmpty_iff.mp hempty]
        simp [Imports.not_declares_nil]
      · rw [List.exists_mem_cons_iff]

namespace Generation

/-- The configuration of some module for the project of a generation imports an id from a target. -/
def ImportsFrom (g : Generation) (id target : String) : Prop :=
  ∃ e ∈ g.workspace.modules, ∃ config, e.2.effective e.1 g.project.name = .ok config ∧
    Imports.Declares config id target

theorem get?_imported_iff {g : Generation} {resources : List Resource} {plan : Plan}
    (h : g.plan resources = .ok plan) (id target : String) :
    plan.imported.get? id = some target ↔ g.ImportsFrom id target := by
  obtain ⟨configs, _, hconfigs, himported, -⟩ := plan_eq_ok_iff.mp h
  rw [Workspace.configsFor, Except.mapError_eq_ok_iff] at hconfigs
  rw [Imports.ofConfigs, Except.mapError_eq_ok_iff] at himported
  rw [Imports.get?_addModules_iff himported, Workspace.exists_declares_iff hconfigs, ImportsFrom]
  simp

/-- A generation up to its patchers: the plan, what its modules returned, and the resources as all
patchers leave them. -/
structure Patched (g : Generation) (source : PluginSource σ) (graph : Graph) (world : World σ)
    (plan : Plan) (results : ModuleResults) (patched : List Resource) : Prop where
  plan_eq : g.plan graph.resources = .ok plan
  results_eq : (g.callModules source plan world).1 = .ok results
  patched_eq : Patcher.patchAll (plan.workloadIndex results) results.patchers
    (plan.collected results) = .ok patched

theorem exists_patched {g : Generation} {source : PluginSource σ} {kinds : KindOrder}
    {graph extended : Graph} {world : World σ}
    (h : (g.addTo source (.ofKinds kinds) graph world).1 = .ok extended) :
    ∃ plan results patched, g.Patched source graph world plan results patched ∧
      extended.resources = kinds.order (patched.map (Resource.markImported plan.imported)) := by
  obtain ⟨plan, results, hplan, hresults, hfinish⟩ := exists_finish h
  unfold Plan.finish at hfinish
  obtain ⟨patched, hpatched, hrun⟩ := Except.bind_eq_ok_iff.mp hfinish
  have horder := (Orderer.run_eq_ok_iff.mp hrun).1
  exact ⟨plan, results, patched, ⟨hplan, hresults, hpatched⟩, (Except.ok.inj horder).symm⟩

end Generation

/-- A resource before imports are marked, and what has become of it in the end. -/
structure Resource.Settled (imported : Dict String) (r r' : Resource) : Prop where
  id_eq : r'.id = r.id
  type_eq : r'.type = r.type
  of_imported : ∀ target, imported.get? r.id = some target → r'.attributes = [] ∧
    r'.extensions.get? importId = some (.string target) ∧
      ∀ note, note ≠ importId → r'.extensions.get? note = r.extensions.get? note
  of_foreign : imported.get? r.id = none →
    r'.attributes = r.attributes ∧ r'.extensions = r.extensions

theorem Resource.settled_markImported (imported : Dict String) (r : Resource) :
    r.Settled imported (r.markImported imported) := by
  unfold markImported
  cases hid : imported.get? r.id with
  | none =>
      refine ⟨rfl, rfl, ?_, ?_⟩
      · intro target htarget
        exact nomatch hid.symm.trans htarget
      · intro _
        exact ⟨rfl, rfl⟩
  | some target =>
      refine ⟨rfl, rfl, ?_, ?_⟩
      · intro target' htarget
        obtain rfl := Option.some.inj (hid.symm.trans htarget)
        refine ⟨rfl, Dict.get?_insert_self _ _ _, ?_⟩
        intro note hnote
        exact Dict.get?_insert_of_ne _ _ hnote
      · intro hnone
        exact nomatch hid.symm.trans hnone

/-- What holds between a resource before imports are marked and after the order is settled. -/
theorem KindOrder.forall₂_order_marked_iff {kinds : KindOrder} {imported : Dict String}
    {resources : List Resource} {p : Resource → Resource → Prop} :
    List.Forall₂ p resources (kinds.order (resources.map (Resource.markImported imported))) ↔
      ∀ r ∈ resources, p r (kinds.orderOne (resources.map (Resource.markImported imported))
        (r.markImported imported)) := by
  rw [KindOrder.order, List.map_map, List.forall₂_map_right_iff, List.forall₂_same]
  rfl

theorem Resource.Settled.orderOne {imported : Dict String} {r r' : Resource}
    (h : r.Settled imported r') (kinds : KindOrder) (resources : List Resource) :
    r.Settled imported (kinds.orderOne resources r') := by
  unfold KindOrder.orderOne
  split
  · exact h
  · exact ⟨h.id_eq, h.type_eq, h.of_imported, h.of_foreign⟩

namespace Generation

/-- In the graph after a generation every imported resource, also one that was there before, has no
attributes, the identifier of its import, and all its other extensions. Every other resource has the
attributes and extensions that the patchers left. The imports are those that the configurations of
the modules declare for the project. -/
theorem addTo_imported (g : Generation) (source : PluginSource σ) (kinds : KindOrder)
    (graph : Graph) (world : World σ) (extended : Graph)
    (h : (g.addTo source (.ofKinds kinds) graph world).1.toOption = some extended) :
    ∃ plan results patched, g.Patched source graph world plan results patched ∧
      (∀ id target, plan.imported.get? id = some target ↔ g.ImportsFrom id target) ∧
      List.Forall₂ (Resource.Settled plan.imported) patched extended.resources := by
  obtain ⟨plan, results, patched, hpatched, hextended⟩ :=
    exists_patched (Except.toOption_eq_some_iff.mp h)
  refine ⟨plan, results, patched, hpatched, get?_imported_iff hpatched.plan_eq, ?_⟩
  rw [hextended, KindOrder.forall₂_order_marked_iff]
  intro r _
  exact (r.settled_markImported plan.imported).orderOne kinds _

def importTable (id target : String) : Config :=
  [("importedResources", .object [(id, .string target)])]

def overriddenImports (id target override : String) : ModuleBlocks :=
  ⟨"", "", importTable id target, [("shops", ⟨["shop"], importTable id override⟩)]⟩

def importingGeneration (blocks : ModuleBlocks) : Generation :=
  { serviceGeneration with workspace := ⟨"dev", [("service", blocks)], none, none⟩ }

def importedGraph : Graph :=
  ⟨[{ Resource.new "a" .kubernetes [] with
      extensions := [("kusion.io/import-id", .string "arn:shop")] }, Namespace.resource "shop",
    { Resource.new "a" .kubernetes [] with
      extensions := [("kusion.io/import-id", .string "arn:shop"),
        ("kusion.io/is-workload", .bool true)] }], none, none⟩

/-- Two resources with one id, of which one was in the graph, are imported although a module patches
that id. -/
theorem addTo_imported_of_patched_id :
    ((importingGeneration (overriddenImports "a" "arn:all" "arn:shop")).addTo
        (selfPatchingSource "a") (.ofKinds .standard) earlierGraph (.start ())).1.toOption =
        some importedGraph ∧
      ∃ plan results patched,
        (importingGeneration (overriddenImports "a" "arn:all" "arn:shop")).Patched
          (selfPatchingSource "a") earlierGraph (.start ()) plan results patched ∧
        (∀ id target, plan.imported.get? id = some target ↔
          (importingGeneration (overriddenImports "a" "arn:all" "arn:shop")).ImportsFrom id
            target) ∧
        List.Forall₂ (Resource.Settled plan.imported) patched importedGraph.resources := by
  have hrun : ((importingGeneration (overriddenImports "a" "arn:all" "arn:shop")).addTo
      (selfPatchingSource "a") (.ofKinds .standard) earlierGraph (.start ())).1.toOption =
        some importedGraph := by
    decide +kernel
  exact ⟨hrun, addTo_imported _ _ _ _ _ _ hrun⟩

end Generation

end ResourceGraph
