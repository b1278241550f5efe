import ResourceGraph.Generation.Calls
import ResourceGraph.Generation.Finish
import ResourceGraph.Graph

/-!
Generation of resource graphs: of one application into a graph, and of all applications of a stack
into one graph. A generation that fails publishes nothing.
-/

namespace ResourceGraph

namespace Generation

variable {σ : Type}

/-- Ask all modules of a plan once the settings of plugins are known and the workload is written. -/
def callModules (g : Generation) (source : PluginSource σ) (plan : Plan) (world : World σ) :
    Except GenerationError ModuleResults × World σ :=
  match source.rules g.stack.path with
  | .error e => (.error (.invocation (.settings e)), world)
  | .ok rules =>
      match g.requestBase with
      | .error e => (.error e, world)
      | .ok base => collect rules base plan world

/-- What a generation changes: the graph of its caller, and the world. -/
structure State (σ : Type) where
  graph : Graph
  world : World σ

/-- A step of a generation. A step that fails leaves a state too. -/
abbrev Action (σ α : Type) := ExceptT GenerationError (StateM (State σ)) α

namespace Action

def runFrom {α : Type} (a : Action σ α) (s : State σ) : Except GenerationError α × State σ :=
  (a.run.run s).run

def onWorld {α : Type} (f : World σ → Except GenerationError α × World σ) : Action σ α :=
  ExceptT.mk fun s =>
    let (outcome, world) := f s.world
    (outcome, { s with world })

def publish (graph : Graph) : Action σ Unit := modify fun s => { s with graph }

end Action

/-- Add the resources of the application to the graph of the caller. All work is done on a copy, and
the caller sees it when it is complete. -/
def addInto (g : Generation) (source : PluginSource σ) (orderer : Orderer) : Action σ Unit := do
  let mut working := (← get).graph
  let plan ← g.plan working.resources
  working := { working with resources := plan.resources }
  let results ← Action.onWorld (g.callModules source plan)
  working := { working with resources := ← plan.finish orderer results }
  working := { working with
    secretStore := g.workspace.secretStore, context := g.workspace.context }
  Action.publish working

/-- A graph with the resources of the application added. -/
def addTo (g : Generation) (source : PluginSource σ) (orderer : Orderer) (graph : Graph)
    (world : World σ) : Except GenerationError Graph × World σ :=
  let (outcome, after) := (g.addInto source orderer).runFrom ⟨graph, world⟩
  (outcome.map fun _ => after.graph, after.world)

def generate (g : Generation) (source : PluginSource σ) (orderer : Orderer) (world : World σ) :
    Except GenerationError Graph × World σ :=
  g.addTo source orderer .empty world

end Generation

namespace Stack

variable {σ : Type}

def buildInto (stack : Stack) (project : Project) (workspace : Workspace)
    (dependencies : Dependencies) (source : PluginSource σ) (orderer : Orderer) :
    Dict App → Graph → World σ → Except GenerationError Graph × World σ
  | [], graph, world => (.ok graph, world)
  | (name, app) :: rest, graph, world =>
      match Generation.new project stack name app workspace dependencies with
      | .error e => (.error e, world)
      | .ok g =>
          match g.addTo source orderer graph world with
          | (.error e, world) => (.error e, world)
          | (.ok graph, world) =>
              stack.buildInto project workspace dependencies source orderer rest graph world

def build (stack : Stack) (project : Project) (apps : Dict App) (workspace : Workspace)
    (dependencies : Dependencies) (source : PluginSource σ) (orderer : Orderer) (world : World σ) :
    Except GenerationError Graph × World σ :=
  stack.buildInto project workspace dependencies source orderer apps .empty world

end Stack

end ResourceGraph
