import ResourceGraph.ModelError
import ResourceGraph.Workspace

namespace ResourceGraph

namespace ModuleBlocks

def selecting (m : ModuleBlocks) (project : String) : Dict PatcherBlock :=
  m.patchers.filter fun e => e.2.selector.contains project

def effective (module : String) (m : ModuleBlocks) (project : String) :
    Except ConfigFault Config :=
  match m.selecting project with
  | [] => .ok m.default
  | [(_, block)] => .ok (m.default.overlay block.config)
  | (first, _) :: (second, _) :: _ => .error (.selectedTwice project module first second)

end ModuleBlocks

namespace Workspace

/-- The effective configurations of the modules in name order; an empty one is left out. -/
def effectiveConfigs (project : String) : Dict ModuleBlocks → Except ConfigFault (Dict Config)
  | [] => .ok []
  | (name, m) :: rest => do
      let config ← m.effective name project
      let configs ← effectiveConfigs project rest
      return if config.isEmpty then configs else (name, config) :: configs

def configsFor (w : Workspace) (project : String) : Except ModelError (Dict Config) :=
  (effectiveConfigs project w.modules).mapError .invalidConfig

end Workspace

namespace Config

def stringMap (config : Config) (key : String) : Except ConfigFault (Dict String) :=
  match config.get? key with
  | none => .ok []
  | some (.object members) =>
      members.mapM fun e =>
        match e.2 with
        | .string s => .ok (e.1, s)
        | _ => .error (.notAString key e.1)
  | some _ => .error (.notAMap key)

end Config

end ResourceGraph
