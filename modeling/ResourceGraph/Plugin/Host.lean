import ResourceGraph.Generation.Error
import ResourceGraph.ModuleKey
import ResourceGraph.Plugin.Frame

namespace ResourceGraph

inductive Panic where
  | raised (error : GenerationError)
  | message (text : String)
  | unknown
  deriving Repr

/-- The error that a panic ends in. An error that was raised is kept as it is. -/
def Panic.error : Panic → GenerationError
  | .raised error => error
  | .message text => .panic text
  | .unknown => .unknownPanic

inductive CallFault where
  | plugin (error : PluginError)
  | panic (payload : Panic)
  deriving Repr

def CallFault.error : CallFault → GenerationError
  | .plugin error => .invocation error
  | .panic payload => payload.error

/-- What a call comes to after so many milliseconds, or never; and the state of the plugins after
it, both when the caller waits for the outcome and when it gives up before. -/
structure Reaction (σ : Type) where
  delay : Option Nat
  outcome : Except CallFault Response
  finished : σ
  abandoned : σ

/-- Plugins by module key. A launch gets the working directory of the plugin. -/
structure Host (σ : Type) where
  launch : σ → ModuleKey → String → Except PluginError Unit × σ
  react : σ → ModuleKey → Call → Reaction σ
  kill : σ → ModuleKey → Except PluginError Unit × σ

structure Behaviour where
  launch : Except PluginError Unit
  delay : Option Nat
  outcome : Except CallFault Response
  kill : Except PluginError Unit

def Behaviour.silent : Behaviour := ⟨.ok (), some 0, .ok .empty, .ok ()⟩

def Host.ofBehaviours (behaviour : ModuleKey → Behaviour) : Host Unit where
  launch _ key _ := ((behaviour key).launch, ())
  react _ key _ := ⟨(behaviour key).delay, (behaviour key).outcome, (), ()⟩
  kill _ key := ((behaviour key).kill, ())

end ResourceGraph
