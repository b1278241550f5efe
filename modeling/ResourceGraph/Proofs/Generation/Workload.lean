import ResourceGraph.Proofs.Generation.Provenance

namespace ResourceGraph

variable {σ : Type}

/-- At most one resource is marked as workload, and only the one at a place. -/
def Graph.OnlyWorkload (graph : Graph) (place : Option Nat) : Prop :=
  (graph.resources.filter Resource.isWorkload).length ≤ 1 ∧
    ∀ i r, graph.resources[i]? = some r → r.isWorkload = true → place = some i

theorem Resource.filter_isWorkload_map_id {resources : List Resource}
    {faces : List (String × ResourceType × Bool)} (h : resources.map Resource.face = faces) :
    (resources.filter Resource.isWorkload).map Resource.id =
      (faces.filter fun f => f.2.2).map Prod.fst := by
  rw [← h, List.filter_map, List.map_map]
  rfl

theorem Resource.getElem?_isWorkload_iff {resources : List Resource} {i : Nat} :
    (resources.map Resource.isWorkload)[i]? = some true ↔
      ∃ r, resources[i]? = some r ∧ r.isWorkload = true := by
  rw [List.getElem?_map, Option.map_eq_some_iff]

theorem forall_place_iff (n : Nat) (selected : Bool) (tail : List Bool) :
    (∀ i, (List.replicate n false ++ (if selected then [true] else []) ++ tail)[i]? = some true →
        (if selected then some n else none) = some i) ↔ true ∉ tail := by
  cases selected with
  | false =>
      simp only [Bool.false_eq_true, if_false, List.append_nil, reduceCtorEq, imp_false]
      constructor
      · intro h hmem
        obtain ⟨i, hi⟩ := List.mem_iff_getElem?.mp (List.mem_append_right (.replicate n false) hmem)
        exact h i hi
      · intro h i hi
        rcases List.mem_append.mp (List.mem_of_getElem? hi) with hmem | hmem
        · exact nomatch List.eq_of_mem_replicate hmem
        · exact h hmem
  | true =>
      simp only [if_true, List.append_assoc, List.singleton_append, Option.some.injEq]
      constructor
      · intro h hmem
        obtain ⟨j, hj⟩ := List.mem_iff_getElem?.mp hmem
        have hplace := h (n + (j + 1)) (by simpa [List.getElem?_append_right] using hj)
        omega
      · intro h i hi
        rcases Nat.lt_trichotomy i n with hlt | rfl | hlt
        · rw [List.getElem?_append_left (by simpa using hlt)] at hi
          exact nomatch List.eq_of_mem_replicate (List.mem_of_getElem? hi)
        · rfl
        · obtain ⟨j, rfl⟩ : ∃ j, i = n + (j + 1) := ⟨i - n - 1, by omega⟩
          rw [List.getElem?_append_right (by simp)] at hi
          exact absurd (List.mem_of_getElem? (by simpa using hi)) h

namespace Generation

theorem filter_expectedFaces (g : Generation) (secrets : Dict DeclaredSecret)
    (workload : Option Resource) (others : List Resource) :
    ((g.expectedFaces .empty secrets workload others).filter fun f => f.2.2).map Prod.fst =
      workload.toList.map Resource.id ++ (others.filter Resource.isWorkload).map Resource.id := by
  have hbuiltin : ∀ ids : List String,
      (ids.map fun id => (id, ResourceType.kubernetes, false)).filter (fun f => f.2.2) = [] := by
    intro ids
    exact List.filter_eq_nil_iff.mpr (by simp)
  simp only [expectedFaces, List.filter_append, hbuiltin, Graph.empty, List.map_nil,
    List.nil_append, List.map_append]
  congr 1
  · cases workload <;> rfl
  · rw [List.filter_map, List.map_map]
    rfl

theorem map_mark_expectedFaces (g : Generation) (secrets : Dict DeclaredSecret)
    (workload : Option Resource) (others : List Resource) :
    (g.expectedFaces .empty secrets workload others).map (fun f => f.2.2) =
      List.replicate (g.builtinIds .empty secrets).length false ++
        (if workload.isSome then [true] else []) ++ others.map Resource.isWorkload := by
  simp only [expectedFaces, List.map_append, List.map_map, Graph.empty, List.map_nil,
    List.nil_append]
  congr 1
  congr 1
  · exact List.map_const' ..
  · cases workload <;> rfl

/-- In the graph of one application the marked resources are the workload and the other returned
resources that were marked. Hence at most one resource is marked, and only the workload, exactly
when modules marked no other. -/
theorem generate_onlyWorkload_iff (g : Generation) (source : PluginSource σ) (kinds : KindOrder)
    (world : World σ) (graph : Graph)
    (h : (g.generate source (.ofKinds kinds) world).1.toOption = some graph) :
    ∃ plan secrets answers workload others,
      g.Provenance source .empty world plan secrets answers workload others ∧
      (graph.resources.filter Resource.isWorkload).map Resource.id =
        workload.toList.map Resource.id ++
          (others.filter Resource.isWorkload).map Resource.id ∧
      (graph.OnlyWorkload (workload.map fun _ => (g.builtinIds .empty secrets).length) ↔
        ∀ r ∈ others, r.isWorkload = false) := by
  have hok : (g.addTo source (.ofKinds kinds) .empty world).1 = .ok graph := by
    unfold generate at h
    cases hrun : (g.addTo source (.ofKinds kinds) .empty world).1 with
    | error e =>
        rw [hrun] at h
        exact nomatch h
    | ok graph' =>
        rw [hrun] at h
        rw [Option.some.inj h]
  obtain ⟨plan, secrets, answers, workload, others, settled, provenance, hface, horder, -⟩ :=
    exists_provenance hok
  -- The order changes no face, so that the marks are those of the collected resources.
  have hfaces : graph.resources.map Resource.face =
      g.expectedFaces .empty secrets workload others := by
    rw [← Except.ok.inj horder, KindOrder.order_map_face, hface]
  have hids := Resource.filter_isWorkload_map_id hfaces
  rw [filter_expectedFaces] at hids
  refine ⟨plan, secrets, answers, workload, others, provenance, hids, ?_⟩
  have hmarks : graph.resources.map Resource.isWorkload =
      List.replicate (g.builtinIds .empty secrets).length false ++
        (if workload.isSome then [true] else []) ++ others.map Resource.isWorkload := by
    rw [← map_mark_expectedFaces, ← hfaces, List.map_map]
    rfl
  have hplace : (workload.map fun _ => (g.builtinIds .empty secrets).length) =
      if workload.isSome then some (g.builtinIds .empty secrets).length else none := by
    cases workload <;> rfl
  have hunmarked : true ∉ others.map Resource.isWorkload ↔
      ∀ r ∈ others, r.isWorkload = false := by
    simp
  have honly := forall_place_iff (g.builtinIds .empty secrets).length workload.isSome
    (others.map Resource.isWorkload)
  rw [← hmarks, ← hplace, hunmarked] at honly
  simp only [Resource.getElem?_isWorkload_iff, forall_exists_index, and_imp] at honly
  constructor
  · rintro ⟨-, h⟩
    exact honly.mp h
  · intro hothers
    refine ⟨?_, honly.mpr hothers⟩
    have hnone : others.filter Resource.isWorkload = [] :=
      List.filter_eq_nil_iff.mpr fun r hr => by simp [hothers r hr]
    have hlength := congrArg List.length hids
    rw [hnone, List.map_nil, List.append_nil, List.length_map, List.length_map] at hlength
    rw [hlength]
    cases workload <;> simp

def answeringSource (documents : List String) : PluginSource Unit :=
  ⟨.ok (.ofBehaviours fun _ =>
    { Behaviour.silent with outcome := .ok ⟨documents.map Bytes.ofText, none⟩ }, 1000),
    fun _ => "t", none, none⟩

def serviceGeneration : Generation :=
  ⟨⟨"shop", none, []⟩, ⟨"dev", "/dev", []⟩,
    ⟨"web", some ⟨[(.string "_type", .string "service.Service")]⟩, []⟩, ⟨"dev", [], none, none⟩,
    [("service", .ofRegistry "acme/service" "1")]⟩

def unmarkedDocument : String := "id: a\ntype: Kubernetes\n"

def markedDocument (id : String) : String :=
  "id: " ++ id ++ "\ntype: Kubernetes\nextensions:\n  kusion.io/is-workload: true\n"

def oneMarkGraph : Graph :=
  ⟨[Namespace.resource "shop", (Resource.new "b" .kubernetes []).asWorkload,
    Resource.new "a" .kubernetes []], none, none⟩

theorem generate_onlyWorkload_of_one_mark :
    (serviceGeneration.generate (answeringSource [unmarkedDocument, markedDocument "b"])
        (.ofKinds .standard) (.start ())).1.toOption = some oneMarkGraph ∧
      ∃ plan secrets answers workload others,
        serviceGeneration.Provenance
          (answeringSource [unmarkedDocument, markedDocument "b"]) .empty (.start ()) plan secrets
          answers workload others ∧
        (oneMarkGraph.resources.filter Resource.isWorkload).map Resource.id =
          workload.toList.map Resource.id ++
            (others.filter Resource.isWorkload).map Resource.id ∧
        (oneMarkGraph.OnlyWorkload
            (workload.map fun _ => (serviceGeneration.builtinIds .empty secrets).length) ↔
          ∀ r ∈ others, r.isWorkload = false) := by
  have hrun : (serviceGeneration.generate
      (answeringSource [unmarkedDocument, markedDocument "b"]) (.ofKinds .standard)
      (.start ())).1.toOption = some oneMarkGraph := by
    decide +kernel
  exact ⟨hrun, generate_onlyWorkload_iff _ _ _ _ _ hrun⟩

/-- Two resources that their module has marked are both marked in the graph. -/
theorem not_onlyWorkload_of_two_marks :
    ∃ graph, (serviceGeneration.generate
        (answeringSource [markedDocument "a", markedDocument "b"]) (.ofKinds .standard)
        (.start ())).1.toOption = some graph ∧ ∀ place, ¬ graph.OnlyWorkload place := by
  refine ⟨⟨[Namespace.resource "shop", (Resource.new "a" .kubernetes []).asWorkload,
    (Resource.new "b" .kubernetes []).asWorkload], none, none⟩, by decide +kernel, ?_⟩
  rintro place ⟨hlength, -⟩
  exact absurd hlength (by decide)

end Generation

end ResourceGraph
