import ResourceGraph.Proofs.Generation.Isolation

namespace ResourceGraph

variable {σ : Type}

/-- No patcher has an attribute patch for a resource, and it is not imported. -/
structure Resource.Unaddressed (r : Resource) (imported : Dict String) (patchers : List Patcher) :
    Prop where
  unpatched : ∀ p ∈ patchers, r.id ∉ p.addressees
  foreign : imported.get? r.id = none

theorem List.Forall₂.exists_getElem? {α β : Type} {R : α → β → Prop} {xs : List α} {ys : List β}
    (h : List.Forall₂ R xs ys) {i : Nat} {x : α} (hx : xs[i]? = some x) :
    ∃ y, ys[i]? = some y ∧ R x y := by
  obtain ⟨hlt, rfl⟩ := List.getElem?_eq_some_iff.mp hx
  have hlt' : i < ys.length := h.length_eq ▸ hlt
  exact ⟨ys[i], List.getElem?_eq_getElem hlt', h.get hlt hlt'⟩

theorem Plan.exists_untouched {plan : Plan} {kinds : KindOrder} {a : ModuleResults}
    {finished : List Resource} (h : plan.finish (.ofKinds kinds) a = .ok finished) {i : Nat}
    {r : Resource} (hr : (plan.collected a)[i]? = some r) (hi : plan.workloadIndex a ≠ some i)
    (unaddressed : r.Unaddressed plan.imported a.patchers) :
    ∃ r', finished[i]? = some r' ∧ r.Untouched r' := by
  obtain ⟨attributes, r', hr', hattributes, huntouched⟩ := Plan.finish_getElem? h hr hi
  rw [Patcher.flatMap_addressedTo_eq_nil unaddressed.unpatched, Resource.attributesAfter_nil]
    at hattributes
  obtain rfl := Except.ok.inj hattributes
  rw [Resource.markImported, unaddressed.foreign] at huntouched
  exact ⟨r', hr', huntouched⟩

namespace Generation

/-- What a generation adds to a graph, and that it comes out as it was emitted where nobody
addresses it: the built-in resources behind those of the graph, and the resources of all modules, in
the order of the answers, behind the built-in ones and the workload. -/
structure Frame (g : Generation) (source : PluginSource σ) (graph : Graph) (world : World σ)
    (extended : Graph) (plan : Plan) (results : ModuleResults) (builtins : List Resource)
    (answers : List Answer) (workload : Option Resource) (others : List Resource) : Prop where
  plan_eq : g.plan graph.resources = .ok plan
  builtins_eq : g.builtins graph.resources = .ok builtins
  results_eq : (g.callModules source plan world).1 = .ok results
  asked : g.Asked source plan world answers
  gathered : Gathered plan.workloadKey answers workload others
  builtins_untouched : ∀ (i : Nat) (r : Resource), builtins[i]? = some r →
    r.Unaddressed plan.imported results.patchers →
    ∃ r', extended.resources[graph.resources.length + i]? = some r' ∧ r.Untouched r'
  others_untouched : ∀ (i : Nat) (r : Resource), others[i]? = some r →
    r.Unaddressed plan.imported results.patchers →
    ∃ r', extended.resources[graph.resources.length + builtins.length +
      workload.toList.length + i]? = some r' ∧ r.Untouched r'

/-- Every resource that a generation adds, other than the workload, comes out untouched at its place
unless it is addressed. -/
theorem addTo_untouched (g : Generation) (source : PluginSource σ) (kinds : KindOrder)
    (graph : Graph) (world : World σ) (extended : Graph)
    (h : (g.addTo source (.ofKinds kinds) graph world).1.toOption = some extended) :
    ∃ plan results builtins answers workload others,
      g.Frame source graph world extended plan results builtins answers workload others := by
  obtain ⟨plan, results, hplan, hresults, hfinish⟩ :=
    exists_finish (Except.toOption_eq_some_iff.mp h)
  obtain ⟨builtins, hbuiltins, hresources⟩ := exists_builtins_of_plan hplan
  obtain ⟨-, -, -, -, -, -, hsorted, -⟩ := exists_secrets_of_plan hplan
  obtain ⟨answers, workload, others, hasked, hgathered, hkeeps⟩ := exists_answers hresults hsorted
  have hworkload : results.workload.toList.length = workload.toList.length := by
    have hface := congrArg (fun f => f.toList.length) hkeeps.workload_face
    simpa only [Option.toList_map, List.length_map] using hface
  have hcollected : plan.collected results =
      graph.resources ++ (builtins ++ (results.workload.toList ++ results.resources)) := by
    simp only [Plan.collected, hresources, List.append_assoc]
  -- The workload stands alone between the built-in resources and the others.
  have hplace : ∀ place, plan.workloadIndex results = some place →
      place = graph.resources.length + builtins.length ∧ results.workload.toList.length = 1 := by
    intro place hindex
    obtain ⟨w, hw, rfl⟩ := Option.map_eq_some_iff.mp hindex
    exact ⟨by rw [hresources, List.length_append], by rw [hw]; rfl⟩
  refine ⟨plan, results, builtins, answers, workload, others, hplan, hbuiltins, hresults, hasked,
    hgathered, ?_, ?_⟩
  · intro i r hr hunaddressed
    have hlt : i < builtins.length := (List.getElem?_eq_some_iff.mp hr).1
    refine Plan.exists_untouched hfinish ?_ (fun hindex => ?_) hunaddressed
    · rw [hcollected, List.getElem?_append_right (Nat.le_add_right _ _), Nat.add_sub_cancel_left,
        List.getElem?_append_left hlt, hr]
    · have hbehind := (hplace _ hindex).1
      omega
  · intro i r hr hunaddressed
    obtain ⟨r₀, hr₀, hkept⟩ := List.Forall₂.exists_getElem? hkeeps.others_untouched hr
    have hr₀' : (plan.collected results)[graph.resources.length + builtins.length +
        workload.toList.length + i]? = some r₀ := by
      simp [hcollected, ← hworkload, List.getElem?_append_right, Nat.add_assoc, hr₀]
    have hbehind : plan.workloadIndex results ≠ some (graph.resources.length + builtins.length +
        workload.toList.length + i) := by
      intro hindex
      obtain ⟨hat, hone⟩ := hplace _ hindex
      omega
    obtain ⟨r', hr', huntouched⟩ := Plan.exists_untouched hfinish hr₀' hbehind
      ⟨hkept.id_eq ▸ hunaddressed.unpatched, hkept.id_eq ▸ hunaddressed.foreign⟩
    exact ⟨r', hr', hkept.trans huntouched⟩

/-- The workload is patched, the resource beside it is not. -/
theorem addTo_untouched_of_patched_workload :
    ∃ extended, (serviceGeneration.addTo (patchingSource
        [markedDocument "w", attributeDocument "b" "mine"] (mergeDocument "w" "new"))
        (.ofKinds .standard) earlierGraph (.start ())).1.toOption = some extended ∧
      extended.resources = [.new "a" .kubernetes [("k", .string "old")], Namespace.resource "shop",
        (Resource.new "w" .kubernetes [("k", .string "new")]).asWorkload,
        .new "b" .kubernetes [("k", .string "mine")]] ∧
      ∃ plan results builtins answers workload others,
        serviceGeneration.Frame (patchingSource
          [markedDocument "w", attributeDocument "b" "mine"] (mergeDocument "w" "new")) earlierGraph
          (.start ()) extended plan results builtins answers workload others := by
  have hrun : (serviceGeneration.addTo (patchingSource
      [markedDocument "w", attributeDocument "b" "mine"] (mergeDocument "w" "new"))
      (.ofKinds .standard) earlierGraph (.start ())).1.toOption =
        some ⟨[.new "a" .kubernetes [("k", .string "old")], Namespace.resource "shop",
          (Resource.new "w" .kubernetes [("k", .string "new")]).asWorkload,
          .new "b" .kubernetes [("k", .string "mine")]], none, none⟩ := by
    decide +kernel
  exact ⟨_, hrun, rfl, addTo_untouched _ _ _ _ _ _ hrun⟩

end Generation

end ResourceGraph
