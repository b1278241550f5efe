import ResourceGraph.Proofs.Generation.Consistent
import ResourceGraph.Proofs.Generation.Workload

/-!
The graph of a stack, put together from the graphs that its applications have alone. What an
application adds does not depend on the graph into which it is generated, but for the namespace,
which only the first application adds.
-/

namespace ResourceGraph

variable {σ : Type}

namespace Generation

def namespaceIds (g : Generation) (graph : Graph) : List String :=
  (Namespace.additions g.nameSpace graph.resources).map Resource.id

theorem namespaceIds_of_mem {g : Generation} {graph : Graph}
    (h : Namespace.resourceId g.nameSpace ∈ graph.ids) : g.namespaceIds graph = [] := by
  rw [namespaceIds, Namespace.additions_of_mem h, List.map_nil]

theorem mem_namespaceIds (g : Generation) (graph : Graph) :
    Namespace.resourceId g.nameSpace ∈ graph.ids ++ g.namespaceIds graph := by
  rw [namespaceIds, Namespace.additions]
  split
  · next hany =>
    obtain ⟨r, hr, hid⟩ := List.any_eq_true.mp hany
    exact List.mem_append_left _ (List.mem_map.mpr ⟨r, hr, eq_of_beq hid⟩)
  · exact List.mem_append_right _ List.mem_cons_self

/-- The ids of the graph of an application when every response is a function of the key and the
request. -/
def idsBy (g : Generation) (answer : ModuleKey → Request → Response) :
    Except GenerationError (List String) := do
  let plan ← g.plan []
  let base ← g.requestBase
  let results ← resultsBy answer base plan.workloadKey plan.briefings .empty
  return (plan.collected results).map Resource.id

/-- From the same results a plan for any graph gives the ids that a plan for the empty graph gives,
without a second namespace. -/
theorem exists_own {g : Generation} {graph : Graph} {plan : Plan} {results : ModuleResults}
    {kinds : KindOrder} {finished : List Resource} (hplan : g.plan graph.resources = .ok plan)
    (hfinish : plan.finish (.ofKinds kinds) results = .ok finished) :
    ∃ own alone, finished.map Resource.id = graph.ids ++ g.namespaceIds graph ++ own ∧
      g.plan [] = .ok alone ∧ alone.workloadKey = plan.workloadKey ∧
      alone.briefings = plan.briefings ∧
      (alone.collected results).map Resource.id = Namespace.resourceId g.nameSpace :: own := by
  obtain ⟨secrets, hplans⟩ := exists_plans hplan
  have hresources : plan.resources =
      graph.resources ++ (Namespace.additions g.nameSpace graph.resources ++ secrets) :=
    congrArg Plan.resources (Except.ok.inj (hplan.symm.trans (hplans graph.resources)))
  refine ⟨(secrets ++ results.workload.toList ++ results.resources).map Resource.id, _, ?_,
    hplans [], rfl, rfl, ?_⟩
  · rw [Resource.map_id_of_map_face (Plan.finish_map_face hfinish), Plan.collected, hresources]
    simp [Graph.ids, namespaceIds]
  · simp [Plan.collected, Namespace.additions, Namespace.resource, Resource.new]

theorem mem_ids_of_addTo {g : Generation} {source : PluginSource σ} {kinds : KindOrder}
    {graph extended : Graph} {world : World σ}
    (h : (g.addTo source (.ofKinds kinds) graph world).1 = .ok extended) :
    Namespace.resourceId g.nameSpace ∈ extended.ids := by
  obtain ⟨plan, results, hplan, -, hfinish⟩ := exists_finish h
  obtain ⟨own, -, hids, -⟩ := exists_own hplan hfinish
  rw [Graph.ids, hids]
  exact List.mem_append_left own (g.mem_namespaceIds graph)

theorem exists_ids_of_addTo {answer : ModuleKey → Request → Response} {sound : σ → Prop}
    {g : Generation} {source : PluginSource σ} {kinds : KindOrder} {graph extended : Graph}
    {world : World σ} (answers : source.AnswersBy answer sound) (start : sound world.plugins)
    (h : (g.addTo source (.ofKinds kinds) graph world).1 = .ok extended) :
    ∃ own, g.idsBy answer = .ok (Namespace.resourceId g.nameSpace :: own) ∧
      extended.ids = graph.ids ++ g.namespaceIds graph ++ own ∧
      sound (g.addTo source (.ofKinds kinds) graph world).2.plugins := by
  obtain ⟨plan, results, hplan, hresults, hfinish⟩ := exists_finish h
  obtain ⟨base, hbase, hresultsBy, hsound⟩ := answers.callModules start (Prod.ext hresults rfl)
  obtain ⟨own, alone, hids, halone, hkey, hbriefings, hown⟩ := exists_own hplan hfinish
  refine ⟨own, ?_, hids, ?_⟩
  · rw [idsBy, halone, hbase]
    simp only [bind, Except.bind, hkey, hbriefings, hresultsBy, hown]
    rfl
  · rw [addTo_eq, hplan]
    exact hsound

end Generation

namespace Stack

section Applications

variable (stack : Stack) (project : Project) (workspace : Workspace) (dependencies : Dependencies)

/-- The applications of a stack in turn, each generated into what those before it have left, and the
graph that each of them found. -/
inductive Built (source : PluginSource σ) (orderer : Orderer) :
    Dict App → Graph → World σ → List Graph → Graph → Prop
  | done {graph : Graph} {world : World σ} : Built source orderer [] graph world [] graph
  | next {name : String} {app : App} {rest : Dict App} {g : Generation}
      {graph extended final : Graph} {world world' : World σ} {found : List Graph}
      (new_eq : Generation.new project stack name app workspace dependencies = .ok g)
      (addTo_eq : g.addTo source orderer graph world = (.ok extended, world'))
      (more : Built source orderer rest extended world' found final) :
      Built source orderer ((name, app) :: rest) graph world (graph :: found) final

/-- An application generated into an empty graph, by plugins that answer by a function. -/
def Alone (kinds : KindOrder) (answer : ModuleKey → Request → Response) (sound : σ → Prop)
    (entry : String × App) (single : Graph) : Prop :=
  ∃ (g : Generation) (source : PluginSource σ) (world : World σ),
    Generation.new project stack entry.1 entry.2 workspace dependencies = .ok g ∧
      source.AnswersBy answer sound ∧ sound world.plugins ∧
      (g.generate source (.ofKinds kinds) world).1 = .ok single

end Applications

variable {stack : Stack} {project : Project} {workspace : Workspace} {dependencies : Dependencies}
  {source : PluginSource σ} {kinds : KindOrder} {apps : Dict App} {graph final : Graph}
  {world : World σ} {found : List Graph} {answer : ModuleKey → Request → Response}
  {sound : σ → Prop}

theorem exists_built {orderer : Orderer}
    (h : (stack.buildInto project workspace dependencies source orderer apps graph world).1 =
      .ok final) :
    ∃ found,
      stack.Built project workspace dependencies source orderer apps graph world found final := by
  induction apps generalizing graph world with
  | nil =>
      obtain rfl := Except.ok.inj h
      exact ⟨[], .done⟩
  | cons entry rest ih =>
      obtain ⟨name, app⟩ := entry
      rw [buildInto] at h
      cases hnew : Generation.new project stack name app workspace dependencies with
      | error e =>
          rw [hnew] at h
          exact nomatch h
      | ok g =>
          rcases hadd : g.addTo source orderer graph world with ⟨e | extended, world'⟩
          · simp only [hnew, hadd] at h
            exact nomatch h
          · simp only [hnew, hadd] at h
            obtain ⟨found, hmore⟩ := ih h
            exact ⟨graph :: found, .next hnew hadd hmore⟩

theorem nameSpace_of_new {name : String} {app : App} {g : Generation}
    (h : Generation.new project stack name app workspace dependencies = .ok g) :
    g.nameSpace = stack.nameSpace project := by
  obtain ⟨-, -, -, rfl⟩ := Generation.new_eq_ok_iff.mp h
  rfl

theorem Built.additions_eq_nil
    (h : stack.Built project workspace dependencies source (.ofKinds kinds) apps graph world found
      final)
    (named : Namespace.resourceId (stack.nameSpace project) ∈ graph.ids) :
    ∀ before ∈ found, Namespace.additions (stack.nameSpace project) before.resources = [] := by
  induction h with
  | done => exact nofun
  | next new_eq addTo_eq more ih =>
      intro before hbefore
      rcases List.mem_cons.mp hbefore with rfl | hbefore
      · exact Namespace.additions_of_mem named
      · have hextended := Generation.mem_ids_of_addTo (congrArg Prod.fst addTo_eq)
        rw [nameSpace_of_new new_eq] at hextended
        exact ih hextended before hbefore

theorem Alone.ids_eq {name : String} {app : App} {single : Graph} {g : Generation}
    {own : List String}
    (h : stack.Alone project workspace dependencies kinds answer sound (name, app) single)
    (new_eq : Generation.new project stack name app workspace dependencies = .ok g)
    (ids_eq : g.idsBy answer = .ok (Namespace.resourceId g.nameSpace :: own)) :
    single.ids = Namespace.resourceId (stack.nameSpace project) :: own := by
  obtain ⟨g', source, world, hnew, answers, hstart, hgenerate⟩ := h
  obtain rfl := Except.ok.inj (new_eq.symm.trans hnew)
  obtain ⟨own', hown', hids, -⟩ := Generation.exists_ids_of_addTo answers hstart hgenerate
  obtain rfl := (List.cons.inj (Except.ok.inj (ids_eq.symm.trans hown'))).2
  rw [hids, ← nameSpace_of_new new_eq]
  rfl

theorem Alone.exists_ids {entry : String × App} {single : Graph}
    (h : stack.Alone project workspace dependencies kinds answer sound entry single) :
    ∃ own, single.ids = Namespace.resourceId (stack.nameSpace project) :: own := by
  obtain ⟨g, source, world, hnew, answers, hstart, hgenerate⟩ := id h
  obtain ⟨own, hown, -, -⟩ := Generation.exists_ids_of_addTo answers hstart hgenerate
  exact ⟨own, h.ids_eq hnew hown⟩

theorem head?_ids_of_alone {singles : List Graph}
    (alone : List.Forall₂
      (stack.Alone project workspace dependencies kinds answer sound) apps singles) :
    ∀ single ∈ singles,
      single.ids.head? = some (Namespace.resourceId (stack.nameSpace project)) := by
  induction alone with
  | nil => exact nofun
  | cons first _ ih =>
      intro single hsingle
      rcases List.mem_cons.mp hsingle with rfl | hsingle
      · obtain ⟨own, hids⟩ := first.exists_ids
        rw [hids]
        rfl
      · exact ih single hsingle

theorem Alone.exists_addTo {name : String} {app : App} {single extended : Graph} {g : Generation}
    {world' : World σ}
    (h : stack.Alone project workspace dependencies kinds answer sound (name, app) single)
    (new_eq : Generation.new project stack name app workspace dependencies = .ok g)
    (answers : source.AnswersBy answer sound) (start : sound world.plugins)
    (addTo_eq : g.addTo source (.ofKinds kinds) graph world = (.ok extended, world')) :
    extended.ids = graph.ids ++ g.namespaceIds graph ++ single.ids.tail ∧ sound world'.plugins := by
  obtain ⟨own, hown, hids, hsound⟩ :=
    Generation.exists_ids_of_addTo answers start (congrArg Prod.fst addTo_eq)
  rw [addTo_eq] at hsound
  rw [h.ids_eq new_eq hown]
  exact ⟨hids, hsound⟩

/-- Into a graph that has the namespace the applications add what they have alone behind it. -/
theorem Built.ids_eq (answers : source.AnswersBy answer sound)
    (h : stack.Built project workspace dependencies source (.ofKinds kinds) apps graph world found
      final)
    (start : sound world.plugins) {singles : List Graph}
    (alone : List.Forall₂
      (stack.Alone project workspace dependencies kinds answer sound) apps singles)
    (named : Namespace.resourceId (stack.nameSpace project) ∈ graph.ids) :
    final.ids = graph.ids ++ singles.flatMap fun single => single.ids.tail := by
  -- That the graph has the namespace and that the states are sound is handed on along the run.
  induction h generalizing singles with
  | done =>
      cases alone
      rw [List.flatMap_nil, List.append_nil]
  | @next name app rest g graph extended final world world' found new_eq addTo_eq more ih =>
      cases alone with
      | @cons _ single _ singles first others =>
      obtain ⟨hids, hsound⟩ := first.exists_addTo new_eq answers start addTo_eq
      have hextended := Generation.mem_ids_of_addTo (congrArg Prod.fst addTo_eq)
      rw [nameSpace_of_new new_eq] at hextended
      rw [Generation.namespaceIds_of_mem (nameSpace_of_new new_eq ▸ named), List.append_nil] at hids
      rw [ih hsound others hextended, hids, List.flatMap_cons, List.append_assoc]

/-- The graph of a stack has the namespace once, and behind it the ids that each application has
alone behind its namespace, for the applications in their order. Whatever modules return, only the
first application adds the namespace. -/
theorem build_ids (stack : Stack) (project : Project) (apps : Dict App) (workspace : Workspace)
    (dependencies : Dependencies) (source : PluginSource σ) (kinds : KindOrder) (world : World σ)
    (answer : ModuleKey → Request → Response) (sound : σ → Prop) (graph : Graph)
    (singles : List Graph) (nonempty : apps ≠ []) (answers : source.AnswersBy answer sound)
    (start : sound world.plugins)
    (built : (stack.build project apps workspace dependencies source (.ofKinds kinds)
      world).1.toOption = some graph)
    (alone : List.Forall₂
      (stack.Alone project workspace dependencies kinds answer sound) apps singles) :
    graph.ids = Namespace.resourceId (stack.nameSpace project) ::
        singles.flatMap (fun single => single.ids.tail) ∧
      (∀ single ∈ singles,
        single.ids.head? = some (Namespace.resourceId (stack.nameSpace project))) ∧
      ∃ found, stack.Built project workspace dependencies source (.ofKinds kinds) apps .empty world
          found graph ∧
        found.flatMap (fun before =>
            Namespace.additions (stack.nameSpace project) before.resources) =
          [Namespace.resource (stack.nameSpace project)] := by
  obtain ⟨found, hbuilt⟩ := exists_built (Except.toOption_eq_some_iff.mp built)
  cases hbuilt with
  | done => exact absurd rfl nonempty
  | @next name app rest g _ extended _ _ world' found new_eq addTo_eq more =>
      have hextended := Generation.mem_ids_of_addTo (congrArg Prod.fst addTo_eq)
      rw [nameSpace_of_new new_eq] at hextended
      refine ⟨?_, head?_ids_of_alone alone, .empty :: found, .next new_eq addTo_eq more, ?_⟩
      · cases alone with
        | cons first others =>
            obtain ⟨hids, hsound⟩ := first.exists_addTo new_eq answers start addTo_eq
            rw [more.ids_eq answers hsound others hextended, hids, List.flatMap_cons,
              ← nameSpace_of_new new_eq]
            rfl
      · rw [List.flatMap_cons, List.flatMap_eq_nil_iff.mpr (more.additions_eq_nil hextended)]
        rfl

def emittedDocuments : List String :=
  [Generation.markedDocument "a", "id: v1:Namespace:shop\ntype: Kubernetes\n"]

def emittedResources : List Resource :=
  [(Resource.new "a" .kubernetes []).asWorkload, .new "v1:Namespace:shop" .kubernetes []]

def emittedGraph : Graph := ⟨Namespace.resource "shop" :: emittedResources, none, none⟩

def emittedStackGraph : Graph :=
  ⟨Namespace.resource "shop" :: (emittedResources ++ emittedResources), none, none⟩

def serviceStack : Stack := Generation.serviceGeneration.stack

def serviceApps : Dict App :=
  [("api", Generation.serviceGeneration.app), ("web", Generation.serviceGeneration.app)]

theorem answersBy_answeringSource (documents : List String) :
    (Generation.answeringSource documents).AnswersBy
      (fun _ _ => ⟨documents.map Bytes.ofText, none⟩) fun _ => True := by
  intro host timeout hhost
  obtain ⟨rfl, -⟩ := Prod.mk.inj (Except.ok.inj hhost)
  constructor
  case launched => exact fun _ _ _ _ _ _ => trivial
  case killed => exact fun _ _ _ _ _ => trivial
  case answered =>
    intro s key call response _ h
    exact ⟨(Except.ok.inj h).symm, trivial⟩

theorem alone_service (name : String) (named : name.isEmpty = false)
    (run : (Generation.generate { Generation.serviceGeneration with
        app := { Generation.serviceGeneration.app with name } }
      (Generation.answeringSource emittedDocuments) (.ofKinds .standard)
      (.start ())).1.toOption = some emittedGraph) :
    serviceStack.Alone Generation.serviceGeneration.project
      Generation.serviceGeneration.workspace Generation.serviceGeneration.dependencies .standard
      (fun _ _ => ⟨emittedDocuments.map Bytes.ofText, none⟩) (fun _ : Unit => True)
      (name, Generation.serviceGeneration.app) emittedGraph :=
  ⟨_, _, .start (), Generation.new_eq_ok_iff.mpr ⟨rfl, named, rfl, rfl⟩,
    answersBy_answeringSource emittedDocuments, trivial, Except.toOption_eq_some_iff.mp run⟩

/-- Two applications whose modules emit the namespace as well. -/
theorem build_ids_of_emitted_namespace :
    (serviceStack.build Generation.serviceGeneration.project serviceApps
        Generation.serviceGeneration.workspace Generation.serviceGeneration.dependencies
        (Generation.answeringSource emittedDocuments) (.ofKinds .standard)
        (.start ())).1.toOption = some emittedStackGraph ∧
      emittedStackGraph.ids =
        "v1:Namespace:shop" :: [emittedGraph, emittedGraph].flatMap fun g => g.ids.tail := by
  have hbuild : (serviceStack.build Generation.serviceGeneration.project serviceApps
      Generation.serviceGeneration.workspace Generation.serviceGeneration.dependencies
      (Generation.answeringSource emittedDocuments) (.ofKinds .standard)
      (.start ())).1.toOption = some emittedStackGraph := by
    decide +kernel
  have halone : List.Forall₂ (serviceStack.Alone
      Generation.serviceGeneration.project Generation.serviceGeneration.workspace
      Generation.serviceGeneration.dependencies .standard
      (fun _ _ => ⟨emittedDocuments.map Bytes.ofText, none⟩) fun _ : Unit => True) serviceApps
      [emittedGraph, emittedGraph] :=
    .cons (alone_service "api" rfl (by decide +kernel))
      (.cons (alone_service "web" rfl (by decide +kernel)) .nil)
  obtain ⟨hids, -, -⟩ := build_ids serviceStack Generation.serviceGeneration.project serviceApps
    Generation.serviceGeneration.workspace Generation.serviceGeneration.dependencies
    (Generation.answeringSource emittedDocuments) .standard (.start ()) _ _ emittedStackGraph
    [emittedGraph, emittedGraph] (List.cons_ne_nil _ _)
    (answersBy_answeringSource emittedDocuments) trivial hbuild halone
  exact ⟨hbuild, hids⟩

end Stack

end ResourceGraph
