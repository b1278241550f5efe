import ResourceGraph.Graph
import ResourceGraph.Proofs.Dict
import ResourceGraph.Proofs.Generation.Passes

namespace ResourceGraph

theorem Resource.face_new (id : String) (type : ResourceType) (attributes : Dict Json) :
    (Resource.new id type attributes).face = (id, type, false) := rfl

theorem Generation.new_eq_ok_iff {project : Project} {stack : Stack} {name : String} {app : App}
    {workspace : Workspace} {dependencies : Dependencies} {g : Generation} :
    new project stack name app workspace dependencies = .ok g ↔
      project.name.isEmpty = false ∧ name.isEmpty = false ∧ workspace.validate = .ok () ∧
        g = ⟨project, stack, { app with name }, workspace, dependencies⟩ := by
  unfold new
  cases hproject : project.name.isEmpty with
  | true => simp [throw, throwThe, MonadExceptOf.throw, bind, Except.bind]
  | false =>
      cases hname : name.isEmpty with
      | true => simp [throw, throwThe, MonadExceptOf.throw, bind, Except.bind]
      | false =>
          simp only [Bool.false_eq_true, if_false, true_and]
          rw [Except.bind_eq_ok_iff]
          simp only [Except.mapError_eq_ok_iff, Except.pure_eq_ok_iff]
          constructor
          · rintro ⟨_, hvalid, rfl⟩
            exact ⟨hvalid, rfl⟩
          · rintro ⟨hvalid, rfl⟩
            exact ⟨(), hvalid, rfl⟩

def Generation.declaredSecrets (g : Generation) : Except SecretFault (Dict DeclaredSecret) :=
  match g.app.workload with
  | some workload => DeclaredSecret.ofWorkload workload
  | none => .ok []

def Generation.builtinIds (g : Generation) (graph : Graph) (secrets : Dict DeclaredSecret) :
    List String :=
  (if graph.contains (Namespace.resourceId g.nameSpace) then []
    else [Namespace.resourceId g.nameSpace]) ++
  secrets.keys.map (DeclaredSecret.resourceId g.nameSpace)

namespace DeclaredSecret

theorem sorted_ofWorkload {workload : Accessory} {secrets : Dict DeclaredSecret}
    (h : ofWorkload workload = .ok secrets) : secrets.Sorted := by
  unfold ofWorkload at h
  split at h
  · obtain rfl := Except.ok.inj h
    exact Dict.sorted_nil
  · obtain rfl := Except.ok.inj h
    exact Dict.sorted_nil
  · split at h
    · exact nomatch h
    · split at h
      · exact nomatch h
      · obtain rfl := Except.ok.inj h
        exact Dict.sorted_ofList _

theorem face_of_resource {nameSpace : String} {store : Option SecretStore} {name : String}
    {s : DeclaredSecret} {r : Resource} (h : s.resource nameSpace store name = .ok r) :
    r.face = (resourceId nameSpace name, .kubernetes, false) := by
  unfold resource at h
  split at h
  · contradiction
  · split at h
    · contradiction
    · obtain ⟨texts, -, h⟩ := Except.bind_eq_ok_iff.mp h
      rw [← Except.pure_eq_ok_iff.mp h, Resource.face_new]

theorem resources_map_face {nameSpace : String} {store : Option SecretStore}
    {secrets : Dict DeclaredSecret} {added : List Resource}
    (h : resources nameSpace store secrets = .ok added) :
    added.map Resource.face =
      secrets.keys.map fun name => (resourceId nameSpace name, .kubernetes, false) := by
  induction secrets generalizing added with
  | nil =>
      obtain rfl := Except.ok.inj h
      rfl
  | cons e rest ih =>
      obtain ⟨r, hr, h⟩ := Except.bind_eq_ok_iff.mp h
      obtain ⟨rs, hrs, h⟩ := Except.bind_eq_ok_iff.mp h
      rw [← Except.pure_eq_ok_iff.mp h, List.map_cons, face_of_resource hr, ih hrs]
      rfl

end DeclaredSecret

theorem Namespace.additions_map_face (name : String) (resources : List Resource) :
    (additions name resources).map Resource.face =
      (if resources.any (·.id == resourceId name) then [] else [resourceId name]).map
        fun id => (id, .kubernetes, false) := by
  unfold additions
  split <;> rfl

theorem Namespace.additions_of_mem {name : String} {resources : List Resource}
    (h : resourceId name ∈ resources.map Resource.id) : additions name resources = [] := by
  obtain ⟨r, hr, hid⟩ := List.mem_map.mp h
  have hany : resources.any (·.id == resourceId name) = true :=
    List.any_eq_true.mpr ⟨r, hr, beq_iff_eq.mpr hid⟩
  rw [additions, if_pos hany]

theorem Generation.exists_secrets_of_builtins {g : Generation} {graph : Graph}
    {added : List Resource} (h : g.builtins graph.resources = .ok added) :
    ∃ secrets, g.declaredSecrets = .ok secrets ∧ secrets.Sorted ∧
      added.map Resource.face =
        (g.builtinIds graph secrets).map fun id => (id, .kubernetes, false) := by
  have hnamespace := Namespace.additions_map_face g.nameSpace graph.resources
  unfold builtins at h
  cases hworkload : g.app.workload with
  | none =>
      rw [hworkload] at h
      rw [← Except.pure_eq_ok_iff.mp h]
      refine ⟨[], by rw [declaredSecrets, hworkload], Dict.sorted_nil, ?_⟩
      rw [List.append_nil, hnamespace, builtinIds]
      simp [Dict.keys, Graph.contains]
  | some workload =>
      rw [hworkload] at h
      obtain ⟨resources, hadditions, h⟩ := Except.bind_eq_ok_iff.mp h
      rw [← Except.pure_eq_ok_iff.mp h]
      obtain ⟨secrets, hsecrets, hresources⟩ :=
        Except.bind_eq_ok_iff.mp (Except.mapError_eq_ok_iff.mp hadditions)
      refine ⟨secrets, by simp only [declaredSecrets, hworkload, hsecrets],
        DeclaredSecret.sorted_ofWorkload hsecrets, ?_⟩
      rw [List.map_append, hnamespace, DeclaredSecret.resources_map_face hresources, builtinIds,
        List.map_append, List.map_map]
      rfl

theorem Briefings.sorted_addAll {context : Option Config} {platforms : Dict Config}
    {deps : Dependencies} {blocks : Dict Accessory} {earlier briefings : Briefings}
    (h : addAll context platforms deps earlier blocks = .ok briefings) (sorted : earlier.Sorted) :
    briefings.Sorted := by
  induction blocks generalizing earlier with
  | nil =>
      obtain rfl := Except.ok.inj h
      exact sorted
  | cons e rest ih =>
      obtain ⟨key, -, h⟩ := Except.bind_eq_ok_iff.mp h
      obtain ⟨module, -, h⟩ := Except.bind_eq_ok_iff.mp h
      exact ih h (sorted.insert _ _)

theorem Generation.plan_eq_ok_iff {g : Generation} {resources : List Resource} {plan : Plan} :
    g.plan resources = .ok plan ↔
      ∃ configs builtins, g.workspace.configsFor g.project.name = .ok configs ∧
        Imports.ofConfigs configs = .ok plan.imported ∧ g.builtins resources = .ok builtins ∧
        Briefings.ofApp g.app g.workspace.context configs g.dependencies = .ok plan.briefings ∧
        Accessory.moduleKey? g.app.workload g.dependencies = .ok plan.workloadKey ∧
        plan.resources = resources ++ builtins := by
  constructor
  · intro h
    obtain ⟨configs, hconfigs, h⟩ := Except.bind_eq_ok_iff.mp h
    obtain ⟨imported, himported, h⟩ := Except.bind_eq_ok_iff.mp h
    obtain ⟨builtins, hbuiltins, h⟩ := Except.bind_eq_ok_iff.mp h
    obtain ⟨briefings, hbriefings, h⟩ := Except.bind_eq_ok_iff.mp h
    obtain ⟨workloadKey, hkey, h⟩ := Except.bind_eq_ok_iff.mp h
    obtain rfl := Except.pure_eq_ok_iff.mp h
    exact ⟨configs, builtins, Except.mapError_eq_ok_iff.mp hconfigs, himported, hbuiltins,
      hbriefings, hkey, rfl⟩
  · rintro ⟨configs, builtins, hconfigs, himported, hbuiltins, hbriefings, hkey, hresources⟩
    unfold Generation.plan
    simp only [Except.mapError_eq_ok_iff.mpr hconfigs, himported, hbuiltins, hbriefings, hkey,
      ← hresources, bind, Except.bind]
    rfl

theorem Generation.exists_builtins_of_plan {g : Generation} {resources : List Resource}
    {plan : Plan} (h : g.plan resources = .ok plan) :
    ∃ builtins, g.builtins resources = .ok builtins ∧ plan.resources = resources ++ builtins := by
  obtain ⟨_, builtins, -, -, hbuiltins, -, -, hresources⟩ := plan_eq_ok_iff.mp h
  exact ⟨builtins, hbuiltins, hresources⟩

theorem Generation.exists_secrets_of_plan {g : Generation} {graph : Graph} {plan : Plan}
    (h : g.plan graph.resources = .ok plan) :
    ∃ secrets added, g.declaredSecrets = .ok secrets ∧ secrets.Sorted ∧
      plan.resources = graph.resources ++ added ∧
      added.map Resource.face =
        ((g.builtinIds graph secrets).map fun id => (id, .kubernetes, false)) ∧
      plan.briefings.Sorted ∧
      Accessory.moduleKey? g.app.workload g.dependencies = .ok plan.workloadKey := by
  obtain ⟨_, added, -, -, hadded, hbriefings, hkey, hresources⟩ := plan_eq_ok_iff.mp h
  obtain ⟨secrets, hsecrets, hsorted, hface⟩ := exists_secrets_of_builtins hadded
  exact ⟨secrets, added, hsecrets, hsorted, hresources, hface,
    Briefings.sorted_addAll hbriefings Dict.sorted_nil, hkey⟩

theorem Generation.exists_builtins {g : Generation} {resources builtins : List Resource}
    (h : g.builtins resources = .ok builtins) :
    ∃ secrets, ∀ resources',
      g.builtins resources' = .ok (Namespace.additions g.nameSpace resources' ++ secrets) := by
  unfold Generation.builtins at h ⊢
  cases hworkload : g.app.workload with
  | none =>
      refine ⟨[], ?_⟩
      intro resources'
      rfl
  | some workload =>
      rw [hworkload] at h
      obtain ⟨secrets, hsecrets, -⟩ := Except.bind_eq_ok_iff.mp h
      refine ⟨secrets, ?_⟩
      intro resources'
      simp only [hsecrets, bind, Except.bind]
      rfl

theorem Generation.exists_plans {g : Generation} {resources : List Resource} {plan : Plan}
    (h : g.plan resources = .ok plan) :
    ∃ secrets, ∀ resources', g.plan resources' = .ok { plan with
      resources := resources' ++ (Namespace.additions g.nameSpace resources' ++ secrets) } := by
  obtain ⟨configs, _, hconfigs, himported, hbuiltins, hbriefings, hkey, -⟩ := plan_eq_ok_iff.mp h
  obtain ⟨secrets, hsecrets⟩ := exists_builtins hbuiltins
  refine ⟨secrets, ?_⟩
  intro resources'
  exact plan_eq_ok_iff.mpr ⟨configs, _, hconfigs, himported, hsecrets resources', hbriefings, hkey,
    rfl⟩

end ResourceGraph
