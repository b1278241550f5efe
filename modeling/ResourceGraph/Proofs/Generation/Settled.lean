import Mathlib.Data.List.Forall2
import ResourceGraph.Proofs.Generation.Action
import ResourceGraph.Proofs.Generation.Lifecycle
import ResourceGraph.Proofs.Generation.Plan
import ResourceGraph.Proofs.Outcome

/-!
No plugin is started before the inputs of a generation are settled: names, workspace, configurations,
imports, namespace, secrets, and the module that serves each block. The checks are made in this
order, and the first that fails decides with which error the generation is refused.
-/

namespace ResourceGraph

namespace DeclaredSecret

variable {nameSpace : String} {store : Option SecretStore} {declared : Dict DeclaredSecret}

theorem resources_eq_ok_iff {secrets : List Resource} :
    resources nameSpace store declared = .ok secrets ↔
      List.Forall₂ (fun e r => e.2.resource nameSpace store e.1 = .ok r) declared secrets := by
  induction declared generalizing secrets with
  | nil =>
      rw [resources, List.forall₂_nil_left_iff]
      constructor
      · intro h
        exact (Except.ok.inj h).symm
      · rintro rfl
        rfl
  | cons e rest ih =>
      rw [resources, Except.bind_eq_ok_iff, List.forall₂_cons_left_iff]
      constructor
      · rintro ⟨r, hr, h⟩
        obtain ⟨rs, hrs, h⟩ := Except.bind_eq_ok_iff.mp h
        exact ⟨r, rs, hr, ih.mp hrs, (Except.pure_eq_ok_iff.mp h).symm⟩
      · rintro ⟨r, rs, hr, hrs, rfl⟩
        exact ⟨r, hr, Except.bind_eq_ok_iff.mpr ⟨rs, ih.mpr hrs, rfl⟩⟩

theorem resources_eq_error_iff {fault : SecretFault} :
    resources nameSpace store declared = .error fault ↔
      Except.FirstError (fun e => e.2.resource nameSpace store e.1) declared fault := by
  induction declared with
  | nil =>
      constructor
      · exact nofun
      · exact fun h => absurd h Except.not_firstError_nil
  | cons e rest ih =>
      rw [resources, Except.bind_eq_error_iff, Except.firstError_cons_iff, ← ih]
      refine or_congr_right ?_
      constructor
      · rintro ⟨r, hr, h⟩
        rcases Except.bind_eq_error_iff.mp h with h | ⟨_, _, h⟩
        · exact ⟨⟨r, hr⟩, h⟩
        · exact nomatch h
      · rintro ⟨⟨r, hr⟩, h⟩
        exact ⟨r, hr, Except.bind_eq_error_iff.mpr (.inl h)⟩

end DeclaredSecret

namespace Briefings

variable {context : Option Config} {platforms : Dict Config} {deps : Dependencies}
  {earlier briefings : Briefings} {blocks : Dict Accessory}

theorem exists_moduleName {block : Accessory} {key : ModuleKey} (h : block.moduleKey deps = .ok key) :
    ∃ module, block.moduleName.mapError GenerationError.ofModel = .ok module := by
  obtain ⟨module, hmodule, -⟩ := Except.bind_eq_ok_iff.mp h
  exact ⟨module, hmodule⟩

theorem addAll_eq_error_iff {e : GenerationError} :
    addAll context platforms deps earlier blocks = .error e ↔
      Except.FirstError (fun b => b.2.moduleKey deps) blocks e := by
  induction blocks generalizing earlier with
  | nil =>
      constructor
      · exact nofun
      · exact fun h => absurd h Except.not_firstError_nil
  | cons b rest ih =>
      rw [addAll, Except.bind_eq_error_iff, Except.firstError_cons_iff]
      refine or_congr_right ?_
      constructor
      · rintro ⟨key, hkey, h⟩
        obtain ⟨module, hmodule⟩ := exists_moduleName hkey
        rcases Except.bind_eq_error_iff.mp h with hname | ⟨_, _, h⟩
        · exact nomatch hmodule.symm.trans hname
        · exact ⟨⟨key, hkey⟩, ih.mp h⟩
      · rintro ⟨⟨key, hkey⟩, h⟩
        obtain ⟨module, hmodule⟩ := exists_moduleName hkey
        exact ⟨key, hkey, Except.bind_eq_error_iff.mpr (.inr ⟨module, hmodule, ih.mpr h⟩)⟩

theorem mem_keys_of_addAll (h : addAll context platforms deps earlier blocks = .ok briefings)
    {text : String} (hmem : text ∈ earlier.keys) : text ∈ briefings.keys := by
  induction blocks generalizing earlier with
  | nil => exact Except.ok.inj h ▸ hmem
  | cons b rest ih =>
      obtain ⟨key, -, h⟩ := Except.bind_eq_ok_iff.mp h
      obtain ⟨module, -, h⟩ := Except.bind_eq_ok_iff.mp h
      apply ih h
      rw [Dict.mem_keys_iff, Dict.get?_insert]
      split
      · rfl
      · exact Dict.mem_keys_iff.mp hmem

theorem exists_key_of_addAll (h : addAll context platforms deps earlier blocks = .ok briefings) :
    ∀ b ∈ blocks, ∃ key, b.2.moduleKey deps = .ok key ∧ key.text ∈ briefings.keys := by
  induction blocks generalizing earlier with
  | nil => exact nofun
  | cons b rest ih =>
      obtain ⟨key, hkey, h⟩ := Except.bind_eq_ok_iff.mp h
      obtain ⟨module, -, h⟩ := Except.bind_eq_ok_iff.mp h
      intro b' hb'
      rcases List.mem_cons.mp hb' with rfl | hb'
      · refine ⟨key, hkey, mem_keys_of_addAll h ?_⟩
        rw [Dict.mem_keys_iff, Dict.get?_insert_self]
        rfl
      · exact ih h b' hb'

end Briefings

theorem App.mem_blocks_of_workload {app : App} {workload : Accessory}
    (h : app.workload = some workload) : ("workload", workload) ∈ app.blocks := by
  rw [blocks, h]
  exact Dict.mem_of_get?_eq_some (Dict.get?_insert_self _ _ _)

theorem Accessory.exists_moduleKey?_of_served {app : App} {deps : Dependencies} {texts : List String}
    (served : ∀ b ∈ app.blocks, ∃ key, b.2.moduleKey deps = .ok key ∧ key.text ∈ texts) :
    ∃ workloadKey, moduleKey? app.workload deps = .ok workloadKey ∧
      ∀ key ∈ workloadKey, key.text ∈ texts := by
  cases hworkload : app.workload with
  | none => exact ⟨none, rfl, nofun⟩
  | some workload =>
      obtain ⟨key, hkey, hmem⟩ := served _ (App.mem_blocks_of_workload hworkload)
      refine ⟨some key, ?_, ?_⟩
      · exact Except.map_eq_ok_iff.mpr ⟨key, hkey, rfl⟩
      · intro key' hkey'
        exact Option.some.inj hkey' ▸ hmem

namespace Generation

variable {g : Generation} {resources : List Resource}

theorem builtins_eq (g : Generation) (resources : List Resource) :
    g.builtins resources =
      (g.declaredSecrets >>= DeclaredSecret.resources g.nameSpace g.workspace.secretStore).mapError
          (fun fault => .config (.secret fault)) >>=
        fun secrets => pure (Namespace.additions g.nameSpace resources ++ secrets) := by
  rw [builtins, declaredSecrets]
  cases g.app.workload with
  | none => rfl
  | some workload => rfl

theorem builtins_eq_ok_iff {builtins : List Resource} :
    g.builtins resources = .ok builtins ↔
      ∃ declared secrets, g.declaredSecrets = .ok declared ∧
        List.Forall₂ (fun e r => e.2.resource g.nameSpace g.workspace.secretStore e.1 = .ok r)
          declared secrets ∧
        builtins = Namespace.additions g.nameSpace resources ++ secrets := by
  simp only [builtins_eq, Except.bind_eq_ok_iff, Except.mapError_eq_ok_iff,
    Except.pure_eq_ok_iff, DeclaredSecret.resources_eq_ok_iff]
  constructor
  · rintro ⟨secrets, ⟨declared, hdeclared, hsecrets⟩, rfl⟩
    exact ⟨declared, secrets, hdeclared, hsecrets, rfl⟩
  · rintro ⟨declared, secrets, hdeclared, hsecrets, rfl⟩
    exact ⟨secrets, ⟨declared, hdeclared, hsecrets⟩, rfl⟩

theorem builtins_eq_error_iff {e : GenerationError} :
    g.builtins resources = .error e ↔
      ∃ fault, e = .config (.secret fault) ∧ (g.declaredSecrets = .error fault ∨
        ∃ declared, g.declaredSecrets = .ok declared ∧
          Except.FirstError (fun e => e.2.resource g.nameSpace g.workspace.secretStore e.1)
            declared fault) := by
  simp only [builtins_eq, Except.bind_eq_error_iff, Except.mapError_eq_error_iff,
    DeclaredSecret.resources_eq_error_iff]
  constructor
  · rintro (⟨fault, hfault, rfl⟩ | ⟨_, _, h⟩)
    · exact ⟨fault, rfl, hfault⟩
    · exact nomatch h
  · rintro ⟨fault, rfl, hfault⟩
    exact .inl ⟨fault, hfault, rfl⟩

theorem plan_eq_error_iff {e : GenerationError} :
    g.plan resources = .error e ↔
      (∃ fault, g.workspace.configsFor g.project.name = .error fault ∧ .ofModel fault = e) ∨
      ∃ configs, g.workspace.configsFor g.project.name = .ok configs ∧
        (Imports.ofConfigs configs = .error e ∨
        ∃ imported, Imports.ofConfigs configs = .ok imported ∧
          (g.builtins resources = .error e ∨
          ∃ builtins, g.builtins resources = .ok builtins ∧
            Except.FirstError (fun b => b.2.moduleKey g.dependencies) g.app.blocks e)) := by
  simp only [plan, Except.bind_eq_error_iff, Except.mapError_eq_error_iff,
    Except.mapError_eq_ok_iff, Briefings.ofApp, Briefings.addAll_eq_error_iff]
  refine or_congr_right (exists_congr fun configs => and_congr_right fun _ => or_congr_right
    (exists_congr fun imported => and_congr_right fun _ => or_congr_right
    (exists_congr fun builtins => and_congr_right fun _ => ?_)))
  constructor
  · rintro (unserved | ⟨briefings, hbriefings, h⟩)
    · exact unserved
    · obtain ⟨workloadKey, hkey, -⟩ :=
        Accessory.exists_moduleKey?_of_served (Briefings.exists_key_of_addAll hbriefings)
      rcases h with h | ⟨_, _, h⟩
      · exact nomatch hkey.symm.trans h
      · exact nomatch h
  · exact .inl

theorem new_eq_error_iff {project : Project} {stack : Stack} {name : String} {app : App}
    {workspace : Workspace} {dependencies : Dependencies} {e : GenerationError} :
    new project stack name app workspace dependencies = .error e ↔
      (project.name = "" ∧ e = .config .namelessProject) ∨
      (project.name ≠ "" ∧ name = "" ∧ e = .config .namelessApp) ∨
      (project.name ≠ "" ∧ name ≠ "" ∧ ∃ fault, workspace.validate = .error fault ∧
        e = .ofModel fault) := by
  by_cases hproject : project.name = ""
  · have hnew : new project stack name app workspace dependencies =
        .error (.config .namelessProject) := by
      rw [new, hproject]
      rfl
    rw [hnew, Except.error.injEq]
    simp [hproject, @eq_comm _ e]
  · by_cases hname : name = ""
    · have hnew : new project stack name app workspace dependencies =
          .error (.config .namelessApp) := by
        rw [new, if_neg (by rwa [String.isEmpty_iff]), hname]
        rfl
      rw [hnew, Except.error.injEq]
      simp [hproject, hname, @eq_comm _ e]
    · unfold new
      simp only [String.isEmpty_iff, hproject, hname, if_false, false_and, false_or, true_and,
        not_false_eq_true, ne_eq, Except.bind_eq_error_iff, Except.mapError_eq_error_iff]
      constructor
      · rintro (⟨fault, hfault, rfl⟩ | ⟨_, _, h⟩)
        · exact ⟨fault, hfault, rfl⟩
        · exact nomatch h
      · rintro ⟨fault, hfault, rfl⟩
        exact .inl ⟨fault, hfault, rfl⟩

end Generation

/-- An application of a stack under a name, all that its generation reads, and the graph that its
resources are added to. -/
structure Inputs where
  project : Project
  stack : Stack
  name : String
  app : App
  workspace : Workspace
  dependencies : Dependencies
  graph : Graph

namespace Inputs

variable {x : Inputs}

def run {σ : Type} (x : Inputs) (source : PluginSource σ) (orderer : Orderer) (world : World σ) :
    Except GenerationError Graph × World σ :=
  match Generation.new x.project x.stack x.name x.app x.workspace x.dependencies with
  | .error e => (.error e, world)
  | .ok g => g.addTo source orderer x.graph world

def generation (x : Inputs) : Generation :=
  ⟨x.project, x.stack, { x.app with name := x.name }, x.workspace, x.dependencies⟩

def nameSpace (x : Inputs) : String := x.stack.nameSpace x.project

def plan (x : Inputs) : Except GenerationError Plan := do
  let g ← Generation.new x.project x.stack x.name x.app x.workspace x.dependencies
  g.plan x.graph.resources

/-- The inputs have names, and a workspace that keeps its rules. -/
structure Admitted (x : Inputs) : Prop where
  project_named : x.project.name ≠ ""
  app_named : x.name ≠ ""
  valid : x.workspace.validate = .ok ()

/-- The configurations that modules have for the project are resolved, with the imports that they
declare. -/
structure Configured (x : Inputs) (configs : Dict Config) (imported : Dict String) : Prop
    extends Admitted x where
  configs_eq : x.workspace.configsFor x.project.name = .ok configs
  imported_eq : Imports.ofConfigs configs = .ok imported

/-- Each secret that the workload declares has become a resource. -/
structure Supplied (x : Inputs) (configs : Dict Config) (imported : Dict String)
    (declared : Dict DeclaredSecret) (secrets : List Resource) : Prop
    extends Configured x configs imported where
  declared_eq : x.generation.declaredSecrets = .ok declared
  secrets_eq : List.Forall₂
    (fun e r => e.2.resource x.nameSpace x.workspace.secretStore e.1 = .ok r) declared secrets

/-- The plan of a generation whose inputs pass all checks. -/
structure Settled (x : Inputs) (plan : Plan) : Prop where
  supplied : ∃ configs declared secrets, Supplied x configs plan.imported declared secrets ∧
    plan.resources = x.graph.resources ++
      (Namespace.additions x.nameSpace x.graph.resources ++ secrets) ∧
    Briefings.ofApp x.app x.workspace.context configs x.dependencies = .ok plan.briefings
  namespaced : Namespace.resourceId x.nameSpace ∈ plan.resources.map Resource.id
  /-- A module serves each accessory that is visited and the workload, and it is briefed. -/
  served : ∀ b ∈ x.app.blocks, ∃ key, b.2.moduleKey x.dependencies = .ok key ∧
    key.text ∈ Dict.keys plan.briefings
  /-- The workload is resolved once more, to a module that is briefed. -/
  workload_served : Accessory.moduleKey? x.app.workload x.dependencies = .ok plan.workloadKey ∧
    ∀ key ∈ plan.workloadKey, key.text ∈ Dict.keys plan.briefings

/-- The first check that inputs do not pass, and its error. -/
inductive Refused (x : Inputs) : GenerationError → Prop
  | namelessProject (nameless : x.project.name = "") : Refused x (.config .namelessProject)
  | namelessApp (named : x.project.name ≠ "") (nameless : x.name = "") :
      Refused x (.config .namelessApp)
  | workspace {fault : ModelError} (project_named : x.project.name ≠ "") (app_named : x.name ≠ "")
      (invalid : x.workspace.validate = .error fault) : Refused x (.ofModel fault)
  | configs {fault : ModelError} (admitted : Admitted x)
      (unresolved : x.workspace.configsFor x.project.name = .error fault) :
      Refused x (.ofModel fault)
  | imports {configs : Dict Config} {e : GenerationError} (admitted : Admitted x)
      (configs_eq : x.workspace.configsFor x.project.name = .ok configs)
      (contradictory : Imports.ofConfigs configs = .error e) : Refused x e
  | secrets {configs : Dict Config} {imported : Dict String} {fault : SecretFault}
      (configured : Configured x configs imported)
      (unreadable : x.generation.declaredSecrets = .error fault) :
      Refused x (.config (.secret fault))
  | secret {configs : Dict Config} {imported : Dict String} {declared : Dict DeclaredSecret}
      {fault : SecretFault} (configured : Configured x configs imported)
      (declared_eq : x.generation.declaredSecrets = .ok declared)
      (refused : Except.FirstError
        (fun e => e.2.resource x.nameSpace x.workspace.secretStore e.1) declared fault) :
      Refused x (.config (.secret fault))
  | block {configs : Dict Config} {imported : Dict String} {declared : Dict DeclaredSecret}
      {secrets : List Resource} {e : GenerationError}
      (supplied : Supplied x configs imported declared secrets)
      (unserved : Except.FirstError (fun b => b.2.moduleKey x.dependencies) x.app.blocks e) :
      Refused x e

theorem new_of_admitted (admitted : Admitted x) :
    Generation.new x.project x.stack x.name x.app x.workspace x.dependencies = .ok x.generation := by
  apply Generation.new_eq_ok_iff.mpr
  refine ⟨?_, ?_, admitted.valid, rfl⟩
  · exact Bool.eq_false_iff.mpr fun h => admitted.project_named (String.isEmpty_iff.mp h)
  · exact Bool.eq_false_iff.mpr fun h => admitted.app_named (String.isEmpty_iff.mp h)

theorem plan_of_admitted (admitted : Admitted x) :
    x.plan = x.generation.plan x.graph.resources := by
  rw [plan, new_of_admitted admitted]
  rfl

theorem admitted_of_new {g : Generation}
    (h : Generation.new x.project x.stack x.name x.app x.workspace x.dependencies = .ok g) :
    Admitted x ∧ g = x.generation := by
  obtain ⟨hproject, hname, hvalid, rfl⟩ := Generation.new_eq_ok_iff.mp h
  exact ⟨⟨fun h => by simp [h] at hproject, fun h => by simp [h] at hname, hvalid⟩, rfl⟩

theorem namespaced (x : Inputs) (secrets : List Resource) :
    Namespace.resourceId x.nameSpace ∈ (x.graph.resources ++
      (Namespace.additions x.nameSpace x.graph.resources ++ secrets)).map Resource.id := by
  rw [Namespace.additions]
  split
  · next hany =>
    obtain ⟨r, hr, hid⟩ := List.any_eq_true.mp hany
    exact List.mem_map.mpr ⟨r, List.mem_append_left _ hr, beq_iff_eq.mp hid⟩
  · simp [Namespace.resource, Resource.new]

theorem plan_eq_ok_iff_settled {plan : Plan} : x.plan = .ok plan ↔ Settled x plan := by
  constructor
  · intro h
    obtain ⟨g, hnew, -⟩ := Except.bind_eq_ok_iff.mp h
    obtain ⟨admitted, -⟩ := admitted_of_new hnew
    rw [plan_of_admitted admitted] at h
    obtain ⟨configs, builtins, hconfigs, himported, hbuiltins, hbriefings, hkey, hresources⟩ :=
      Generation.plan_eq_ok_iff.mp h
    obtain ⟨declared, secrets, hdeclared, hsecrets, rfl⟩ :=
      Generation.builtins_eq_ok_iff.mp hbuiltins
    have hserved := Briefings.exists_key_of_addAll hbriefings
    constructor
    · exact ⟨configs, declared, secrets, ⟨⟨admitted, hconfigs, himported⟩, hdeclared, hsecrets⟩,
        hresources, hbriefings⟩
    · rw [hresources]
      exact namespaced x secrets
    · exact hserved
    · obtain ⟨workloadKey, hkey', hindexed⟩ := Accessory.exists_moduleKey?_of_served hserved
      obtain rfl := Except.ok.inj (hkey.symm.trans hkey')
      exact ⟨hkey, hindexed⟩
  · intro settled
    obtain ⟨configs, declared, secrets, supplied, hresources, hbriefings⟩ := settled.supplied
    rw [plan_of_admitted supplied.toAdmitted]
    apply Generation.plan_eq_ok_iff.mpr
    exact ⟨configs, _, supplied.configs_eq, supplied.imported_eq, Generation.builtins_eq_ok_iff.mpr
      ⟨declared, secrets, supplied.declared_eq, supplied.secrets_eq, rfl⟩, hbriefings,
      settled.workload_served.1, hresources⟩

theorem refused_of_plan_eq_error {e : GenerationError} (h : x.plan = .error e) : Refused x e := by
  rcases Except.bind_eq_error_iff.mp h with hnew | ⟨g, hnew, hplan⟩
  · rcases Generation.new_eq_error_iff.mp hnew with
      ⟨nameless, rfl⟩ | ⟨named, nameless, rfl⟩ | ⟨hproject, hname, fault, invalid, rfl⟩
    · exact .namelessProject nameless
    · exact .namelessApp named nameless
    · exact .workspace hproject hname invalid
  · obtain ⟨admitted, rfl⟩ := admitted_of_new hnew
    rcases Generation.plan_eq_error_iff.mp hplan with ⟨fault, unresolved, rfl⟩ |
      ⟨configs, hconfigs, contradictory | ⟨imported, himported, hbuiltins |
        ⟨builtins, hbuiltins, unserved⟩⟩⟩
    · exact .configs admitted unresolved
    · exact .imports admitted hconfigs contradictory
    · have configured : Configured x configs imported := ⟨admitted, hconfigs, himported⟩
      obtain ⟨fault, rfl, unreadable | ⟨declared, hdeclared, refused⟩⟩ :=
        Generation.builtins_eq_error_iff.mp hbuiltins
      · exact .secrets configured unreadable
      · exact .secret configured hdeclared refused
    · obtain ⟨declared, secrets, hdeclared, hsecrets, -⟩ :=
        Generation.builtins_eq_ok_iff.mp hbuiltins
      exact .block ⟨⟨admitted, hconfigs, himported⟩, hdeclared, hsecrets⟩ unserved

theorem plan_eq_error_of_builtins {configs : Dict Config} {imported : Dict String}
    {e : GenerationError} (configured : Configured x configs imported)
    (h : x.generation.builtins x.graph.resources = .error e) : x.plan = .error e := by
  rw [plan_of_admitted configured.toAdmitted]
  apply Generation.plan_eq_error_iff.mpr
  exact .inr ⟨configs, configured.configs_eq, .inr ⟨imported, configured.imported_eq, .inl h⟩⟩

theorem plan_eq_error_of_refused {e : GenerationError} (refused : Refused x e) :
    x.plan = .error e := by
  -- The first three are refused before there is a generation, the others by its plan.
  cases refused with
  | namelessProject nameless =>
      apply Except.bind_eq_error_iff.mpr
      exact .inl (Generation.new_eq_error_iff.mpr (.inl ⟨nameless, rfl⟩))
  | namelessApp named nameless =>
      apply Except.bind_eq_error_iff.mpr
      exact .inl (Generation.new_eq_error_iff.mpr (.inr (.inl ⟨named, nameless, rfl⟩)))
  | workspace project_named app_named invalid =>
      apply Except.bind_eq_error_iff.mpr
      exact .inl (Generation.new_eq_error_iff.mpr
        (.inr (.inr ⟨project_named, app_named, _, invalid, rfl⟩)))
  | configs admitted unresolved =>
      rw [plan_of_admitted admitted]
      exact Generation.plan_eq_error_iff.mpr (.inl ⟨_, unresolved, rfl⟩)
  | imports admitted configs_eq contradictory =>
      rw [plan_of_admitted admitted]
      exact Generation.plan_eq_error_iff.mpr (.inr ⟨_, configs_eq, .inl contradictory⟩)
  | secrets configured unreadable =>
      apply plan_eq_error_of_builtins configured
      exact Generation.builtins_eq_error_iff.mpr ⟨_, rfl, .inl unreadable⟩
  | secret configured declared_eq refused =>
      apply plan_eq_error_of_builtins configured
      exact Generation.builtins_eq_error_iff.mpr ⟨_, rfl, .inr ⟨_, declared_eq, refused⟩⟩
  | block supplied unserved =>
      rw [plan_of_admitted supplied.toAdmitted]
      have hbuiltins : x.generation.builtins x.graph.resources = _ :=
        Generation.builtins_eq_ok_iff.mpr
          ⟨_, _, supplied.declared_eq, supplied.secrets_eq, rfl⟩
      exact Generation.plan_eq_error_iff.mpr (.inr ⟨_, supplied.configs_eq,
        .inr ⟨_, supplied.imported_eq, .inr ⟨_, hbuiltins, unserved⟩⟩⟩)

theorem plan_eq_error_iff_refused {e : GenerationError} : x.plan = .error e ↔ Refused x e :=
  ⟨refused_of_plan_eq_error, plan_eq_error_of_refused⟩

section Launches

variable {σ : Type} {source : PluginSource σ} {orderer : Orderer} {world : World σ}

theorem run_of_plan_eq_error {e : GenerationError} (h : x.plan = .error e) :
    x.run source orderer world = (.error e, world) := by
  rcases Except.bind_eq_error_iff.mp h with hnew | ⟨g, hnew, hplan⟩
  · rw [run, hnew]
  · simp only [run, hnew, Generation.addTo_eq, hplan]

theorem run_of_settled {plan : Plan} (settled : Settled x plan) :
    (x.run source orderer world).2 = (x.generation.callModules source plan world).2 := by
  obtain ⟨_, _, _, supplied, -⟩ := settled.supplied
  have hplan : x.generation.plan x.graph.resources = .ok plan := by
    rw [← plan_of_admitted supplied.toAdmitted]
    exact plan_eq_ok_iff_settled.mpr settled
  simp only [run, new_of_admitted supplied.toAdmitted, Generation.addTo_eq, hplan]

end Launches

end Inputs

theorem Generation.exists_attempts {σ : Type} (g : Generation) (source : PluginSource σ)
    {plan : Plan} (world : World σ) (sorted : plan.briefings.Sorted) :
    ∃ journal, (g.callModules source plan world).2.journal = world.journal ++ journal ∧
      ∀ key ∈ journal.filterMap Event.attempted?, key.text ∈ Dict.keys plan.briefings := by
  unfold callModules
  cases source.rules g.stack.path with
  | error e => exact ⟨[], (List.append_nil _).symm, nofun⟩
  | ok rules =>
      cases g.requestBase with
      | error e => exact ⟨[], (List.append_nil _).symm, nofun⟩
      | ok base =>
          obtain ⟨visits, journal, kills, life⟩ := collect_lifecycle rules base plan world sorted
          refine ⟨journal ++ (startedKeys journal).map Event.killed, ?_, ?_⟩
          · rw [← List.append_assoc]
            exact life.final_journal_eq
          · -- Modules are ended after the last launch, and an end is no attempt.
            intro key hkey
            rw [List.filterMap_append, List.filterMap_map] at hkey
            rcases List.mem_append.mp hkey with hkey | hkey
            · obtain ⟨text, htext, rfl⟩ :=
                List.mem_map.mp (life.attempts_isPrefix.subset hkey)
              exact htext
            · simp [Function.comp_def, Event.attempted?] at hkey

/-- A launch is attempted only if all inputs are settled, and for a module that the plan briefs.
Inputs that are refused give the error of the first check that they do not pass, and leave the world
as it was; all other inputs are settled. -/
theorem Inputs.run_attempts_settled {σ : Type} (x : Inputs) (source : PluginSource σ)
    (orderer : Orderer) (world : World σ) :
    (∃ journal, (x.run source orderer world).2.journal = world.journal ++ journal ∧
      ∀ key ∈ journal.filterMap Event.attempted?,
        ∃ plan, Settled x plan ∧ key.text ∈ Dict.keys plan.briefings) ∧
    (∀ e, Refused x e → x.run source orderer world = (.error e, world)) ∧
    ((∃ plan, Settled x plan) ↔ ¬∃ e, Refused x e) := by
  refine ⟨?_, ?_, ?_⟩
  · cases h : x.plan with
    | error e =>
        rw [run_of_plan_eq_error h]
        exact ⟨[], (List.append_nil _).symm, nofun⟩
    | ok plan =>
        have settled := plan_eq_ok_iff_settled.mp h
        obtain ⟨configs, _, _, -, -, hbriefings⟩ := settled.supplied
        obtain ⟨journal, hjournal, hkeys⟩ := x.generation.exists_attempts source world
          (Briefings.sorted_addAll hbriefings Dict.sorted_nil)
        rw [run_of_settled settled]
        exact ⟨journal, hjournal, fun key hkey => ⟨plan, settled, hkeys key hkey⟩⟩
  · intro e refused
    exact run_of_plan_eq_error (plan_eq_error_iff_refused.mpr refused)
  · constructor
    · rintro ⟨plan, settled⟩ ⟨e, refused⟩
      exact nomatch (plan_eq_ok_iff_settled.mpr settled).symm.trans
        (plan_eq_error_iff_refused.mpr refused)
    · intro hrefused
      cases h : x.plan with
      | error e => exact absurd ⟨e, plan_eq_error_iff_refused.mp h⟩ hrefused
      | ok plan => exact ⟨plan, plan_eq_ok_iff_settled.mp h⟩

def shopInputs : Inputs where
  project := ⟨"shop", none, []⟩
  stack := ⟨"dev", "/dev", []⟩
  name := "web"
  app := ⟨"", some ⟨[(.string "_type", .string "service.Service"),
    (.string "secrets", .mapping [(.string "key", .mapping [(.string "type", .string "token"),
      (.string "data", .mapping [(.string "token", .string "x")])])])]⟩,
    [("db", ⟨[(.string "_type", .string "mysql.MySQL")]⟩)]⟩
  workspace := ⟨"dev", [("service", ⟨"", "",
    [("importedResources", .object [("a", .string "arn:a")])], []⟩)], none, none⟩
  dependencies := [("mysql", .ofRegistry "acme/mysql" "2"), ("service", .ofRegistry "acme/service" "1")]
  graph := .empty

def silentSource : PluginSource Unit :=
  ⟨.ok (.ofBehaviours fun _ => .silent, 1000), fun _ => "t", none, none⟩

theorem Inputs.run_attempts_settled_of_secret :
    (shopInputs.run silentSource (.ofKinds .standard) (.start ())).2.journal.filterMap
        Event.attempted? = [⟨"acme/mysql@2"⟩, ⟨"acme/service@1"⟩] ∧
      (∃ plan, Settled shopInputs plan ∧ "acme/service@1" ∈ Dict.keys plan.briefings) ∧
      Refused { shopInputs with name := "" } (.config .namelessApp) ∧
      Inputs.run { shopInputs with name := "" } silentSource (.ofKinds .standard) (.start ()) =
        (.error (.config .namelessApp), .start ()) := by
  have hattempts : (shopInputs.run silentSource (.ofKinds .standard) (.start ())).2.journal.filterMap
      Event.attempted? = [⟨"acme/mysql@2"⟩, ⟨"acme/service@1"⟩] := by
    decide +kernel
  have hrefused : Refused { shopInputs with name := "" } (.config .namelessApp) :=
    .namelessApp (by decide) rfl
  obtain ⟨journal, hjournal, hsettled⟩ :=
    (run_attempts_settled shopInputs silentSource (.ofKinds .standard) (.start ())).1
  have hrefusal := (run_attempts_settled { shopInputs with name := "" } silentSource
    (.ofKinds .standard) (.start ())).2.1 _ hrefused
  refine ⟨hattempts, hsettled ⟨"acme/service@1"⟩ ?_, hrefused, hrefusal⟩
  have hall : (shopInputs.run silentSource (.ofKinds .standard) (.start ())).2.journal = journal :=
    hjournal
  rw [← hall, hattempts]
  exact List.mem_cons_of_mem _ List.mem_cons_self

end ResourceGraph
