import ResourceGraph.Proofs.Generation.Action
import ResourceGraph.Proofs.Generation.Answers
import ResourceGraph.Proofs.Generation.Plan

/-!
Where the resources of a graph come from. A generation adds the namespace, the secrets, the workload
and all else that modules returned; nothing is lost, doubled or moved.
-/

namespace ResourceGraph

variable {σ : Type}

/-- The answers of all modules of a plan, when every visit and every kill succeeds. -/
structure Generation.Asked (g : Generation) (source : PluginSource σ) (plan : Plan)
    (world : World σ) (answers : List Answer) : Prop where
  exists_visits : ∃ rules base visits results reached,
    source.rules g.stack.path = .ok rules ∧ g.requestBase = .ok base ∧
      Visits rules base plan.workloadKey plan.briefings .empty world visits results reached ∧
      Answered visits answers
  keys_eq : answers.map Answer.key = (Dict.keys plan.briefings).map ModuleKey.mk
  sorted : plan.briefings.Sorted

/-- What a graph that a generation has extended is made of: the declared secrets, the answers of the
modules in the order of their keys, and the workload among them. -/
structure Generation.Provenance (g : Generation) (source : PluginSource σ) (graph : Graph)
    (world : World σ) (plan : Plan) (secrets : Dict DeclaredSecret) (answers : List Answer)
    (workload : Option Resource) (others : List Resource) : Prop where
  plan_eq : g.plan graph.resources = .ok plan
  workloadKey_eq : Accessory.moduleKey? g.app.workload g.dependencies = .ok plan.workloadKey
  secrets_eq : g.declaredSecrets = .ok secrets
  secrets_sorted : secrets.Sorted
  asked : g.Asked source plan world answers
  gathered : Gathered plan.workloadKey answers workload others

def Generation.expectedIds (g : Generation) (graph : Graph) (secrets : Dict DeclaredSecret)
    (workload : Option Resource) (others : List Resource) : List String :=
  graph.ids ++ g.builtinIds graph secrets ++ workload.toList.map Resource.id ++
    others.map Resource.id

def Generation.expectedFaces (g : Generation) (graph : Graph) (secrets : Dict DeclaredSecret)
    (workload : Option Resource) (others : List Resource) :
    List (String × ResourceType × Bool) :=
  graph.resources.map Resource.face ++
    (g.builtinIds graph secrets).map (fun id => (id, .kubernetes, false)) ++
    workload.toList.map (fun r => (r.id, r.type, true)) ++ others.map Resource.face

theorem Resource.find?_isWorkload_of_map_face {resources : List Resource}
    {before after : List (String × ResourceType × Bool)} {id : String} {type : ResourceType}
    (h : resources.map Resource.face = before ++ (id, type, true) :: after)
    (unmarked : ∀ f ∈ before, f.2.2 = false) :
    ∃ r, resources[before.length]? = some r ∧ resources.find? Resource.isWorkload = some r ∧
      r.id = id ∧ r.type = type := by
  obtain ⟨front, back, rfl, rfl, hback⟩ := List.map_eq_append_iff.mp h
  obtain ⟨r, rest, rfl, hr, -⟩ := List.map_eq_cons_iff.mp hback
  have hmarked : r.isWorkload = true := congrArg (fun f => f.2.2) hr
  have hfront : ∀ x ∈ front, !x.isWorkload := by
    intro x hx
    have hx' : x.isWorkload = false := unmarked x.face (List.mem_map_of_mem hx)
    rw [hx']
    rfl
  refine ⟨r, by simp, List.find?_eq_some_iff_append.mpr ⟨hmarked, front, rest, rfl, hfront⟩,
    congrArg Prod.fst hr, congrArg (fun f => f.2.1) hr⟩

namespace Generation

theorem map_fst_expectedFaces (g : Generation) (graph : Graph) (secrets : Dict DeclaredSecret)
    (workload : Option Resource) (others : List Resource) :
    (g.expectedFaces graph secrets workload others).map Prod.fst =
      g.expectedIds graph secrets workload others := by
  simp only [expectedFaces, expectedIds, Graph.ids, List.map_append, List.map_map]
  congr 1
  congr 1
  congr 1
  exact List.map_id'' (fun _ => rfl) _

theorem exists_answers {g : Generation} {source : PluginSource σ} {plan : Plan} {world : World σ}
    {results : ModuleResults} (h : (g.callModules source plan world).1 = .ok results)
    (sorted : plan.briefings.Sorted) :
    ∃ answers workload others, g.Asked source plan world answers ∧
      Gathered plan.workloadKey answers workload others ∧ results.Keeps workload others := by
  unfold callModules at h
  cases hrules : source.rules g.stack.path with
  | error e =>
      rw [hrules] at h
      exact nomatch h
  | ok rules =>
      cases hbase : g.requestBase with
      | error e =>
          simp only [hrules, hbase] at h
          exact nomatch h
      | ok base =>
          simp only [hrules, hbase] at h
          obtain ⟨visits, journal, kills, life⟩ := collect_lifecycle rules base plan world sorted
          obtain ⟨results', reached, visited, -, hresults⟩ := life.visited
          obtain rfl := hresults results h
          have succeed := (life.isOk_iff.mp ⟨results, h⟩).1
          have hstart : Gathered plan.workloadKey [] none [] := .unchosen (by simp)
          obtain ⟨answers, workload, others, hanswered, hgathered, hkeeps⟩ :=
            visited.exists_answers succeed sorted hstart ⟨⟨rfl, rfl⟩, .nil⟩ (by simp)
          refine ⟨answers, workload, others, ⟨⟨rules, base, visits, results, reached, hrules,
            hbase, visited, hanswered⟩, ?_, sorted⟩, hgathered, hkeeps⟩
          rw [hanswered.map_key, visited.map_key_of_success succeed]

theorem exists_finish {g : Generation} {source : PluginSource σ} {orderer : Orderer}
    {graph extended : Graph} {world : World σ}
    (h : (g.addTo source orderer graph world).1 = .ok extended) :
    ∃ plan results, g.plan graph.resources = .ok plan ∧
      (g.callModules source plan world).1 = .ok results ∧
      plan.finish orderer results = .ok extended.resources := by
  rw [addTo_eq] at h
  cases hplan : g.plan graph.resources with
  | error e =>
      rw [hplan] at h
      exact nomatch h
  | ok plan =>
      simp only [hplan] at h
      obtain ⟨results, hresults, h⟩ := Except.bind_eq_ok_iff.mp h
      obtain ⟨finished, hfinish, h⟩ := Except.bind_eq_ok_iff.mp h
      obtain rfl := Except.pure_eq_ok_iff.mp h
      exact ⟨plan, results, rfl, hresults, hfinish⟩

theorem exists_provenance {g : Generation} {source : PluginSource σ} {orderer : Orderer}
    {graph extended : Graph} {world : World σ}
    (h : (g.addTo source orderer graph world).1 = .ok extended) :
    ∃ plan secrets answers workload others settled,
      g.Provenance source graph world plan secrets answers workload others ∧
      settled.map Resource.face = g.expectedFaces graph secrets workload others ∧
      orderer settled = .ok extended.resources ∧
      (extended.resources.map Resource.id).Perm (settled.map Resource.id) := by
  obtain ⟨plan, results, hplan, hresults, hfinish⟩ := exists_finish h
  obtain ⟨secrets, added, hsecrets, hsorted, hresources, hadded, hbriefings, hkey⟩ :=
    exists_secrets_of_plan hplan
  obtain ⟨answers, workload, others, hasked, hgathered, hkeeps⟩ :=
    exists_answers hresults hbriefings
  obtain ⟨settled, hface, horder, hperm⟩ := Plan.exists_settled hfinish
  refine ⟨plan, secrets, answers, workload, others, settled,
    ⟨hplan, hkey, hsecrets, hsorted, hasked, hgathered⟩, ?_, horder, hperm⟩
  have hworkload : results.workload.toList.map Resource.face =
      workload.toList.map fun r => (r.id, r.type, true) := by
    rw [← Option.toList_map, hkeeps.workload_face, Option.toList_map]
  rw [hface, Plan.collected, hresources, List.map_append, List.map_append, List.map_append,
    hadded, hworkload, hkeeps.others_face, expectedFaces]

/-- The state that a generation leaves. Where it succeeds, the graph keeps its ids and has those of
the namespace, of the secrets, of the workload and of all other returned resources besides, each as
often as it was there. The order by kind also keeps their places, and the workload of a graph that
was empty is the one that was resolved. Where it fails, the graph is as it was. -/
theorem addInto_provenance (g : Generation) (source : PluginSource σ) (orderer : Orderer)
    (graph : Graph) (world : World σ) :
    match (g.addInto source orderer).runFrom ⟨graph, world⟩ with
    | (.error _, after) => after.graph = graph
    | (.ok _, after) =>
        ∃ plan secrets answers workload others,
          g.Provenance source graph world plan secrets answers workload others ∧
          after.graph.ids.Perm (g.expectedIds graph secrets workload others) ∧
          ∀ kinds, orderer = .ofKinds kinds →
            after.graph.ids = g.expectedIds graph secrets workload others ∧
            ∀ w, workload = some w → graph.resources = [] →
              ∃ r, after.graph.resources[(g.builtinIds graph secrets).length]? = some r ∧
                after.graph.workload? = some r ∧ r.id = w.id ∧ r.type = w.type := by
  rcases h : (g.addInto source orderer).runFrom ⟨graph, world⟩ with ⟨e | _, after⟩
  · exact g.addInto_atomic source orderer ⟨graph, world⟩ e after h
  · obtain ⟨plan, secrets, answers, workload, others, settled, provenance, hface, horder, hperm⟩ :=
      exists_provenance (addTo_eq_ok h)
    have hids : settled.map Resource.id = g.expectedIds graph secrets workload others := by
      rw [← map_fst_expectedFaces, ← hface, List.map_map]
      rfl
    refine ⟨plan, secrets, answers, workload, others, provenance, hids ▸ hperm, ?_⟩
    rintro kinds rfl
    have hordered : after.graph.resources = kinds.order settled := (Except.ok.inj horder).symm
    refine ⟨?_, ?_⟩
    · rw [Graph.ids, hordered, KindOrder.order_map_id, hids]
    · rintro w rfl hempty
      have hfaces : after.graph.resources.map Resource.face =
          (g.builtinIds graph secrets).map (fun id => (id, .kubernetes, false)) ++
            (w.id, w.type, true) :: others.map Resource.face := by
        rw [hordered, KindOrder.order_map_face, hface, expectedFaces, hempty]
        simp
      have hfind := Resource.find?_isWorkload_of_map_face hfaces (by simp)
      rwa [List.length_map] at hfind

end Generation

end ResourceGraph
