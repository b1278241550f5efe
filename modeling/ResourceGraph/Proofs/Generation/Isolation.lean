import ResourceGraph.Proofs.Generation.Places
import ResourceGraph.Proofs.Generation.Workload

namespace ResourceGraph

variable {σ : Type}

/-- All resources of a graph have kept their attributes in a graph that extends it. -/
def Graph.Isolated (graph extended : Graph) : Prop :=
  ∀ (i : Nat) (r : Resource), graph.resources[i]? = some r →
    ∃ r' : Resource, extended.resources[i]? = some r' ∧ r'.id = r.id ∧ r'.attributes = r.attributes

def Graph.patchedAttributes (graph : Graph) (patchers : List Patcher) (i : Nat) (r : Resource) :
    Except GenerationError (Dict Json) :=
  r.attributesAfter (graph.ids.take i) (patchers.flatMap (Patcher.addressedTo r.id))

/-- The resources that a generation adds to those of a graph, before they are patched. -/
def Plan.added (plan : Plan) (graph : Graph) (a : ModuleResults) : List Resource :=
  (plan.collected a).drop graph.resources.length

namespace Generation

theorem exists_attributesAfter {g : Generation} {graph : Graph} {plan : Plan}
    {results : ModuleResults} {kinds : KindOrder} {finished : List Resource}
    (hplan : g.plan graph.resources = .ok plan)
    (hfinish : plan.finish (.ofKinds kinds) results = .ok finished) {i : Nat} {r : Resource}
    (hr : graph.resources[i]? = some r) (hforeign : plan.imported.get? r.id = none) :
    ∃ r', finished[i]? = some r' ∧ r'.id = r.id ∧
      graph.patchedAttributes results.patchers i r = .ok r'.attributes := by
  obtain ⟨builtins, -, hresources⟩ := exists_builtins_of_plan hplan
  have hlt : i < graph.resources.length := (List.getElem?_eq_some_iff.mp hr).1
  have hcollected : plan.collected results =
      graph.resources ++ (builtins ++ results.workload.toList ++ results.resources) := by
    simp only [Plan.collected, hresources, List.append_assoc]
  have hplace : plan.workloadIndex results ≠ some i := by
    intro h
    obtain ⟨-, -, hi⟩ := Option.map_eq_some_iff.mp h
    rw [hresources, List.length_append] at hi
    omega
  obtain ⟨attributes, r', hr', hattributes, huntouched⟩ := Plan.finish_getElem? hfinish
    (hcollected ▸ List.getElem?_append_left hlt ▸ hr) hplace
  rw [Resource.markImported, hforeign] at huntouched
  refine ⟨r', hr', huntouched.id_eq, ?_⟩
  rw [huntouched.attributes_eq, ← hattributes, hcollected, List.map_append,
    List.take_append_of_le_length (by simpa using Nat.le_of_lt hlt)]
  rfl

/-- Where no resource of the graph is imported, each of them ends with the attributes that the
attribute patches for its id give it if it is the first with that id, and with its own otherwise.
So all keep their attributes exactly when these patches change none of them, and surely when no
patch is for an id of the graph. -/
theorem addTo_isolated_iff (g : Generation) (source : PluginSource σ) (kinds : KindOrder)
    (graph : Graph) (world : World σ) (extended : Graph)
    (h : (g.addTo source (.ofKinds kinds) graph world).1.toOption = some extended) :
    ∃ plan results, g.plan graph.resources = .ok plan ∧
      (g.callModules source plan world).1 = .ok results ∧
      ((∀ r ∈ graph.resources, plan.imported.get? r.id = none) →
        (∀ (i : Nat) (r : Resource), graph.resources[i]? = some r →
          ∃ r' : Resource, extended.resources[i]? = some r' ∧ r'.id = r.id ∧
            graph.patchedAttributes results.patchers i r = .ok r'.attributes) ∧
        (graph.Isolated extended ↔ ∀ (i : Nat) (r : Resource), graph.resources[i]? = some r →
          graph.patchedAttributes results.patchers i r = .ok r.attributes) ∧
        ((∀ p ∈ results.patchers, ∀ id ∈ p.addressees, id ∉ graph.ids) →
          graph.Isolated extended)) := by
  obtain ⟨plan, results, hplan, hresults, hfinish⟩ :=
    exists_finish (Except.toOption_eq_some_iff.mp h)
  refine ⟨plan, results, hplan, hresults, ?_⟩
  intro hforeign
  have hplaces : ∀ (i : Nat) (r : Resource), graph.resources[i]? = some r →
      ∃ r' : Resource, extended.resources[i]? = some r' ∧ r'.id = r.id ∧
        graph.patchedAttributes results.patchers i r = .ok r'.attributes := by
    intro i r hr
    exact exists_attributesAfter hplan hfinish hr (hforeign r (List.mem_of_getElem? hr))
  have hiff : graph.Isolated extended ↔ ∀ (i : Nat) (r : Resource), graph.resources[i]? = some r →
      graph.patchedAttributes results.patchers i r = .ok r.attributes := by
    refine forall_congr' fun i => forall_congr' fun r => imp_congr_right fun hr => ?_
    obtain ⟨r', hr', hid, hattributes⟩ := hplaces i r hr
    rw [hr', hattributes]
    simp [hid]
  refine ⟨hplaces, hiff, ?_⟩
  intro hpatches
  apply hiff.mpr
  intro i r hr
  have hid : r.id ∈ graph.ids := List.mem_map_of_mem (List.mem_of_getElem? hr)
  rw [Graph.patchedAttributes,
    Patcher.flatMap_addressedTo_eq_nil fun p hp hr => hpatches p hp _ hr hid]
  exact r.attributesAfter_nil _

def patchingSource (documents : List String) (patcher : String) : PluginSource Unit :=
  ⟨.ok (.ofBehaviours fun _ =>
    { Behaviour.silent with
      outcome := .ok ⟨documents.map Bytes.ofText, some (Bytes.ofText patcher)⟩ }, 1000),
    fun _ => "t", none, none⟩

def attributeDocument (id value : String) : String :=
  "id: " ++ id ++ "\ntype: Kubernetes\nattributes:\n  k: " ++ value ++ "\n"

def mergeDocument (id value : String) : String :=
  "jsonPatcher:\n  " ++ id ++ ":\n    type: MergePatch\n    payload:\n      k: " ++ value ++ "\n"

def earlierGraph : Graph := ⟨[.new "a" .kubernetes [("k", .string "old")]], none, none⟩

def selfPatchingSource (id : String) : PluginSource Unit :=
  patchingSource [attributeDocument id "mine"] (mergeDocument id "new")

/-- What a generation imports, the ids that it adds, and those for which it has patches. -/
def addressing (g : Generation) (source : PluginSource σ) (graph : Graph) (world : World σ) :
    Option (Dict String × List String × List String) :=
  (g.plan graph.resources).toOption.bind fun plan =>
    (g.callModules source plan world).1.toOption.map fun a =>
      (plan.imported, (plan.added graph a).map Resource.id, a.patchers.flatMap Patcher.addressees)

theorem addressing_eq {g : Generation} {source : PluginSource σ} {graph : Graph} {world : World σ}
    {plan : Plan} {results : ModuleResults} (hplan : g.plan graph.resources = .ok plan)
    (hresults : (g.callModules source plan world).1 = .ok results) :
    g.addressing source graph world =
      some (plan.imported, (plan.added graph results).map Resource.id,
        results.patchers.flatMap Patcher.addressees) := by
  rw [addressing, hplan, Except.toOption, Option.bind_some, hresults]
  rfl

/-- Patches for an id that the graph lacks leave its resources alone. -/
theorem addTo_isolated_of_own_id :
    (serviceGeneration.addTo (selfPatchingSource "b") (.ofKinds .standard) earlierGraph
        (.start ())).1.toOption =
      some ⟨[.new "a" .kubernetes [("k", .string "old")], Namespace.resource "shop",
        (Resource.new "b" .kubernetes [("k", .string "new")]).asWorkload], none, none⟩ ∧
    earlierGraph.Isolated ⟨[.new "a" .kubernetes [("k", .string "old")], Namespace.resource "shop",
        (Resource.new "b" .kubernetes [("k", .string "new")]).asWorkload], none, none⟩ := by
  have hrun : (serviceGeneration.addTo (selfPatchingSource "b") (.ofKinds .standard) earlierGraph
      (.start ())).1.toOption =
        some ⟨[.new "a" .kubernetes [("k", .string "old")], Namespace.resource "shop",
          (Resource.new "b" .kubernetes [("k", .string "new")]).asWorkload], none, none⟩ := by
    decide +kernel
  obtain ⟨plan, results, hplan, hresults, h⟩ := addTo_isolated_iff _ _ _ _ _ _ hrun
  have haddressing : serviceGeneration.addressing (selfPatchingSource "b") earlierGraph
      (.start ()) = some ([], ["v1:Namespace:shop", "b"], ["b"]) := by
    decide +kernel
  obtain ⟨himported, -, hpatches⟩ : plan.imported = [] ∧ _ ∧
      results.patchers.flatMap Patcher.addressees = ["b"] := by
    simpa using (addressing_eq hplan hresults).symm.trans haddressing
  refine ⟨hrun, (h fun r _ => by rw [himported]; rfl).2.2 fun p hp id hid => ?_⟩
  have hmem := List.mem_flatMap.mpr ⟨p, hp, hid⟩
  rw [hpatches] at hmem
  obtain rfl := List.mem_singleton.mp hmem
  decide

/-- A patch for an id that the graph and the answer of the module share changes the graph. -/
theorem not_isolated_of_shared_id :
    ∃ plan results extended, serviceGeneration.plan earlierGraph.resources = .ok plan ∧
      (serviceGeneration.callModules (selfPatchingSource "a") plan (.start ())).1 = .ok results ∧
      (serviceGeneration.addTo (selfPatchingSource "a") (.ofKinds .standard) earlierGraph
        (.start ())).1 = .ok extended ∧
      (∀ p ∈ results.patchers, ∀ id ∈ p.addressees,
        id ∈ (plan.added earlierGraph results).map Resource.id) ∧
      (∀ r ∈ earlierGraph.resources, plan.imported.get? r.id = none) ∧
      ¬ earlierGraph.Isolated extended := by
  have hrun : (serviceGeneration.addTo (selfPatchingSource "a") (.ofKinds .standard) earlierGraph
      (.start ())).1.toOption =
        some ⟨[.new "a" .kubernetes [("k", .string "new")], Namespace.resource "shop",
          (Resource.new "a" .kubernetes [("k", .string "mine")]).asWorkload], none, none⟩ := by
    decide +kernel
  have haddressing : serviceGeneration.addressing (selfPatchingSource "a") earlierGraph
      (.start ()) = some ([], ["v1:Namespace:shop", "a"], ["a"]) := by
    decide +kernel
  have hok := Except.toOption_eq_some_iff.mp hrun
  obtain ⟨plan, results, hplan, hresults, -⟩ := exists_finish hok
  obtain ⟨himported, hadded, hpatches⟩ : plan.imported = [] ∧
      (plan.added earlierGraph results).map Resource.id = ["v1:Namespace:shop", "a"] ∧
      results.patchers.flatMap Patcher.addressees = ["a"] := by
    simpa using (addressing_eq hplan hresults).symm.trans haddressing
  refine ⟨plan, results, _, hplan, hresults, hok, fun p hp id hid => ?_,
    fun r _ => by rw [himported]; rfl, fun hisolated => ?_⟩
  · have hmem := List.mem_flatMap.mpr ⟨p, hp, hid⟩
    rw [hpatches] at hmem
    obtain rfl := List.mem_singleton.mp hmem
    rw [hadded]
    decide
  · obtain ⟨r', hr', -, hattributes⟩ := hisolated 0 _ rfl
    obtain rfl := Option.some.inj hr'
    exact absurd hattributes (by decide)

end Generation

end ResourceGraph
