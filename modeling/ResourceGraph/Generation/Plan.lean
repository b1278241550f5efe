import ResourceGraph.Generation.Imports
import ResourceGraph.Generation.Request
import ResourceGraph.Project
import ResourceGraph.Resource.Namespace
import ResourceGraph.Resource.Secret
import ResourceGraph.Workspace.Valid

namespace ResourceGraph

/-- The namespace that the extensions of the stack name, and otherwise those of the project. A kind
that the stack declares is not taken from the project. -/
def Stack.nameSpace (stack : Stack) (project : Project) : String :=
  let inherited := project.extensions.filter fun e => !stack.extensions.any (·.kind == e.kind)
  let declared := (stack.extensions ++ inherited).filter (·.kind == .kubernetesNamespace)
  match (declared.findSome? Extension.nameSpace).filter fun name => !name.isEmpty with
  | some name => name
  | none => project.name

structure Generation where
  project : Project
  stack : Stack
  app : App
  workspace : Workspace
  dependencies : Dependencies

namespace Generation

/-- A generation for an application under a name. Project and application have names, and the
workspace keeps its rules. -/
def new (project : Project) (stack : Stack) (name : String) (app : App) (workspace : Workspace)
    (dependencies : Dependencies) : Except GenerationError Generation := do
  if project.name.isEmpty then throw (.config .namelessProject)
  if name.isEmpty then throw (.config .namelessApp)
  workspace.validate.mapError .ofModel
  return ⟨project, stack, { app with name }, workspace, dependencies⟩

def nameSpace (g : Generation) : String := g.stack.nameSpace g.project

/-- The built-in resources that a graph lacks: the namespace, and the secrets of the workload. -/
def builtins (g : Generation) (resources : List Resource) :
    Except GenerationError (List Resource) := do
  let secrets ← match g.app.workload with
    | some workload => DeclaredSecret.additions g.nameSpace workload g.workspace.secretStore
    | none => pure []
  -- Only the namespace may be there already: the applications of a stack share it.
  return Namespace.additions g.nameSpace resources ++ secrets

end Generation

/-- What to import, the resources so far, and what each module is told. -/
structure Plan where
  imported : Dict String
  resources : List Resource
  briefings : Briefings
  workloadKey : Option ModuleKey

namespace Generation

def plan (g : Generation) (resources : List Resource) : Except GenerationError Plan := do
  let configs ← (g.workspace.configsFor g.project.name).mapError .ofModel
  let imported ← Imports.ofConfigs configs
  let builtins ← g.builtins resources
  let briefings ← Briefings.ofApp g.app g.workspace.context configs g.dependencies
  -- The workload is one of the blocks, so that its key is known once these are briefed.
  let workloadKey ← Accessory.moduleKey? g.app.workload g.dependencies
  return ⟨imported, resources ++ builtins, briefings, workloadKey⟩

def requestBase (g : Generation) : Except GenerationError RequestBase :=
  RequestBase.new g.project.name g.stack.name g.app.name g.app.workload g.workspace.secretStore

end Generation

end ResourceGraph
