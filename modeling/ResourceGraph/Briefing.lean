import ResourceGraph.Dependency.Key
import ResourceGraph.HealthPolicy

namespace ResourceGraph

structure Platform where
  config : Config
  healthPolicy : Option HealthPolicy
  deriving DecidableEq, Repr

def Platform.ofConfig (config : Config) : Platform :=
  ⟨config, (config.get? "healthPolicy").bind HealthPolicy.ofJson?⟩

structure Briefing where
  block : Option Accessory
  platform : Option Platform
  context : Option Config
  deriving Repr

def Briefing.healthPolicy (b : Briefing) : Option HealthPolicy :=
  b.platform.bind Platform.healthPolicy

abbrev Briefings := Dict Briefing

/-- The blocks of an application by name; the workload takes the name `workload`. -/
def App.blocks (app : App) : Dict Accessory :=
  match app.workload with
  | some w => app.accessories.insert "workload" w
  | none => app.accessories

namespace Briefings

/-- Add the blocks in the order of their names; a later block takes the place of an earlier one
with the same key. -/
def addAll (context : Option Config) (platforms : Dict Config) (deps : Dependencies) :
    Briefings → Dict Accessory → Except GenerationError Briefings
  | briefings, [] => .ok briefings
  | briefings, (_, block) :: rest => do
      let key ← block.moduleKey deps
      let module ← block.moduleName.mapError .ofModel
      let platform := (platforms.get? module).map Platform.ofConfig
      addAll context platforms deps (briefings.insert key.text ⟨some block, platform, context⟩) rest

def ofApp (app : App) (context : Option Config) (platforms : Dict Config) (deps : Dependencies) :
    Except GenerationError Briefings :=
  addAll context platforms deps [] app.blocks

end Briefings

end ResourceGraph
