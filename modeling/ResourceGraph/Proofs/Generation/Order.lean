import ResourceGraph.Proofs.Generation.Imports

namespace ResourceGraph

variable {σ : Type}

namespace KindOrder

/-- The kind of a resource comes before that of another. -/
def Below (kinds : KindOrder) (s r : Resource) : Prop :=
  ∃ m n, kinds.rank? s = some m ∧ kinds.rank? r = some n ∧ m < n

/-- Every resource depends in the end on all resources whose kinds came before its own. -/
def Covers (kinds : KindOrder) (before after : List Resource) : Prop :=
  List.Forall₂ (fun r r' => ∀ s ∈ before, kinds.Below s r → s.id ∈ r'.dependsOn) before after

theorem mem_addMissing_iff {present ids : List String} {id : String} :
    id ∈ addMissing present ids ↔ id ∈ present ∨ id ∈ ids := by
  induction ids generalizing present with
  | nil => simp [addMissing]
  | cons first rest ih =>
      rw [addMissing, ih, List.mem_cons]
      split
      · next hcontains =>
        have hmem : first ∈ present := List.contains_iff_mem.mp hcontains
        constructor
        · rintro (hold | hrest)
          · exact .inl hold
          · exact .inr (.inr hrest)
        · rintro (hold | rfl | hrest)
          · exact .inl hold
          · exact .inl hmem
          · exact .inr hrest
      · rw [List.mem_append, List.mem_singleton, or_assoc]

theorem mem_idsBelow_iff {kinds : KindOrder} {resources : List Resource} {n : Nat} {id : String} :
    id ∈ kinds.idsBelow resources n ↔
      ∃ s ∈ resources, (∃ m, kinds.rank? s = some m ∧ m < n) ∧ s.id = id := by
  simp [idsBelow, Option.any_eq_true, and_assoc]

theorem mem_dependsOn_orderOne_iff {kinds : KindOrder} {resources : List Resource} {r : Resource}
    {id : String} :
    id ∈ (kinds.orderOne resources r).dependsOn ↔
      id ∈ r.dependsOn ∨ ∃ s ∈ resources, kinds.Below s r ∧ s.id = id := by
  unfold orderOne Below
  cases hrank : kinds.rank? r with
  | none => simp
  | some n => simp [mem_addMissing_iff, mem_idsBelow_iff]

theorem rank?_markImported (kinds : KindOrder) (imported : Dict String) (r : Resource) :
    kinds.rank? (r.markImported imported) =
      if imported.get? r.id = none then kinds.rank? r else none := by
  unfold Resource.markImported
  cases imported.get? r.id with
  | none => rfl
  | some target =>
      unfold rank?
      cases r.type with
      | kubernetes => rfl
      | terraform => rfl

theorem below_markImported_iff {kinds : KindOrder} {imported : Dict String} {s r : Resource} :
    kinds.Below (s.markImported imported) (r.markImported imported) ↔
      kinds.Below s r ∧ imported.get? r.id = none ∧ imported.get? s.id = none := by
  unfold Below
  rw [rank?_markImported, rank?_markImported]
  split
  · next hs =>
    split
    · next hr => simp [hs, hr]
    · next hr => simp [hr]
  · next hs => simp [hs]

theorem mem_dependsOn_marked_iff {kinds : KindOrder} {imported : Dict String}
    {resources : List Resource} {s r : Resource} (hs : s ∈ resources) (below : kinds.Below s r) :
    s.id ∈ (kinds.orderOne (resources.map (Resource.markImported imported))
        (r.markImported imported)).dependsOn ↔
      s.id ∈ r.dependsOn ∨ imported.get? r.id = none ∧ imported.get? s.id = none := by
  have hdependsOn : (r.markImported imported).dependsOn = r.dependsOn := by
    unfold Resource.markImported
    split
    · rfl
    · rfl
  rw [mem_dependsOn_orderOne_iff, hdependsOn]
  refine or_congr_right ?_
  constructor
  · -- The resource below may be another one with the same id, and is imported if that is.
    rintro ⟨x, hx, hbelow, hid⟩
    obtain ⟨y, -, rfl⟩ := List.mem_map.mp hx
    obtain ⟨-, hr, hy⟩ := below_markImported_iff.mp hbelow
    rw [Resource.markImported_id] at hid
    exact ⟨hr, hid ▸ hy⟩
  · rintro ⟨hr, hforeign⟩
    refine ⟨s.markImported imported, List.mem_map_of_mem hs, ?_, s.markImported_id imported⟩
    exact below_markImported_iff.mpr ⟨below, hr, hforeign⟩

end KindOrder

namespace Generation

/-- By the kinds that the patchers left, a resource ends up depending on one of an earlier kind exactly
when neither of the two is imported, or when it depended on that id before. Hence every resource
depends on all those of earlier kinds exactly when each pair of which one is imported did so before,
and surely when nothing is imported. -/
theorem addTo_covers_iff (g : Generation) (source : PluginSource σ) (kinds : KindOrder)
    (graph : Graph) (world : World σ) (extended : Graph)
    (h : (g.addTo source (.ofKinds kinds) graph world).1.toOption = some extended) :
    ∃ plan results patched, g.Patched source graph world plan results patched ∧
      List.Forall₂ (fun r r' => ∀ s ∈ patched, kinds.Below s r →
          (s.id ∈ r'.dependsOn ↔
            s.id ∈ r.dependsOn ∨ plan.imported.get? r.id = none ∧ plan.imported.get? s.id = none))
        patched extended.resources ∧
      (kinds.Covers patched extended.resources ↔
        ∀ r ∈ patched, ∀ s ∈ patched, kinds.Below s r →
          s.id ∈ r.dependsOn ∨ plan.imported.get? r.id = none ∧ plan.imported.get? s.id = none) ∧
      ((∀ r ∈ patched, plan.imported.get? r.id = none) →
        kinds.Covers patched extended.resources) := by
  obtain ⟨plan, results, patched, hpatched, hextended⟩ :=
    exists_patched (Except.toOption_eq_some_iff.mp h)
  have hcovers : kinds.Covers patched extended.resources ↔
      ∀ r ∈ patched, ∀ s ∈ patched, kinds.Below s r →
        s.id ∈ r.dependsOn ∨ plan.imported.get? r.id = none ∧ plan.imported.get? s.id = none := by
    rw [KindOrder.Covers, hextended, KindOrder.forall₂_order_marked_iff]
    refine forall₂_congr fun r _ => forall₂_congr fun s hs => imp_congr_right fun hbelow => ?_
    exact KindOrder.mem_dependsOn_marked_iff hs hbelow
  refine ⟨plan, results, patched, hpatched, ?_, hcovers, ?_⟩
  · rw [hextended, KindOrder.forall₂_order_marked_iff]
    intro r _ s hs hbelow
    exact KindOrder.mem_dependsOn_marked_iff hs hbelow
  · intro hforeign
    apply hcovers.mpr
    intro r hr s hs _
    exact .inr ⟨hforeign r hr, hforeign s hs⟩

def kindDocument (id kind : String) : String :=
  "id: " ++ id ++ "\ntype: Kubernetes\nattributes:\n  kind: " ++ kind ++ "\n"

def importing (id : String) : Generation :=
  importingGeneration ⟨"", "", importTable id "arn:shop", []⟩

/-- The service waits for the namespace, but not for the imported configuration. -/
theorem addTo_covers_of_imported_config :
    ∃ extended, ((importing "c").addTo (answeringSource
        [kindDocument "s" "Service", kindDocument "c" "ConfigMap"]) (.ofKinds .standard) .empty
        (.start ())).1.toOption = some extended ∧
      extended.resources.map Resource.dependsOn = [[], ["v1:Namespace:shop"], []] ∧
      ∃ plan results patched, (importing "c").Patched (answeringSource
          [kindDocument "s" "Service", kindDocument "c" "ConfigMap"]) .empty (.start ()) plan
          results patched ∧
        List.Forall₂ (fun r r' => ∀ s ∈ patched, KindOrder.Below .standard s r →
            (s.id ∈ r'.dependsOn ↔ s.id ∈ r.dependsOn ∨
              plan.imported.get? r.id = none ∧ plan.imported.get? s.id = none))
          patched extended.resources := by
  have hrun : ((importing "c").addTo (answeringSource
      [kindDocument "s" "Service", kindDocument "c" "ConfigMap"]) (.ofKinds .standard) .empty
      (.start ())).1.toOption =
        some ⟨[Namespace.resource "shop",
          { Resource.new "s" .kubernetes [("kind", .string "Service")] with
            dependsOn := ["v1:Namespace:shop"] },
          { Resource.new "c" .kubernetes [] with
            extensions := [("kusion.io/import-id", .string "arn:shop")] }], none, none⟩ := by
    decide +kernel
  obtain ⟨plan, results, patched, hpatched, hplaces, -⟩ := addTo_covers_iff _ _ _ _ _ _ hrun
  exact ⟨_, hrun, rfl, plan, results, patched, hpatched, hplaces⟩

def patchedResources (g : Generation) (source : PluginSource σ) (graph : Graph) (world : World σ) :
    Option (List Resource) :=
  (g.plan graph.resources).toOption.bind fun plan =>
    (g.callModules source plan world).1.toOption.bind fun results =>
      (Patcher.patchAll (plan.workloadIndex results) results.patchers
        (plan.collected results)).toOption

theorem Patched.eq_some {g : Generation} {source : PluginSource σ} {graph : Graph}
    {world : World σ} {plan : Plan} {results : ModuleResults} {patched : List Resource}
    (h : g.Patched source graph world plan results patched) :
    g.patchedResources source graph world = some patched := by
  rw [patchedResources, h.plan_eq, Except.toOption, Option.bind_some, h.results_eq, Except.toOption,
    Option.bind_some, h.patched_eq]
  rfl

/-- A service does not wait for the namespace when the namespace is imported. -/
theorem not_covers_of_imported_namespace :
    ∃ plan results patched extended,
      (importing "v1:Namespace:shop").Patched (answeringSource [kindDocument "s" "Service"]) .empty
        (.start ()) plan results patched ∧
      ((importing "v1:Namespace:shop").addTo (answeringSource [kindDocument "s" "Service"])
        (.ofKinds .standard) .empty (.start ())).1 = .ok extended ∧
      ¬ KindOrder.Covers .standard patched extended.resources := by
  have hrun : ((importing "v1:Namespace:shop").addTo (answeringSource [kindDocument "s" "Service"])
      (.ofKinds .standard) .empty (.start ())).1.toOption =
        some ⟨[{ Resource.new "v1:Namespace:shop" .kubernetes [] with
            extensions := [("kusion.io/import-id", .string "arn:shop")] },
          (Resource.new "s" .kubernetes [("kind", .string "Service")]).asWorkload], none, none⟩ := by
    decide +kernel
  have hresources : (importing "v1:Namespace:shop").patchedResources
      (answeringSource [kindDocument "s" "Service"]) .empty (.start ()) =
        some [Namespace.resource "shop",
          (Resource.new "s" .kubernetes [("kind", .string "Service")]).asWorkload] := by
    decide +kernel
  have hok := Except.toOption_eq_some_iff.mp hrun
  obtain ⟨plan, results, patched, hpatched, -⟩ := exists_patched hok
  obtain rfl := Option.some.inj (hpatched.eq_some.symm.trans hresources)
  refine ⟨plan, results, _, _, hpatched, hok, ?_⟩
  intro hcovers
  cases hcovers with
  | cons _ hrest =>
      cases hrest with
      | cons hservice _ =>
          have hbelow : KindOrder.Below .standard (Namespace.resource "shop")
              (Resource.new "s" .kubernetes [("kind", .string "Service")]).asWorkload :=
            ⟨0, 13, by decide, by decide, by decide⟩
          exact nomatch hservice _ List.mem_cons_self hbelow

end Generation

end ResourceGraph
