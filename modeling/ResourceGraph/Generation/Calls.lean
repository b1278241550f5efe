import ResourceGraph.Generation.Plan
import ResourceGraph.ModuleResults
import ResourceGraph.Plugin.Pool

namespace ResourceGraph

/-- Where the plugins of generations come from, the timeout of calls in milliseconds that holds
there, and a timeout and a deadline of the caller's own. -/
structure PluginSource (σ : Type) where
  host : Except SettingsError (Host σ × Nat)
  trace : Nat → String
  timeout : Option Nat
  deadline : Option Nat

def PluginSource.rules {σ : Type} (source : PluginSource σ) (workDir : String) :
    Except SettingsError (PoolRules σ) :=
  source.host.map fun (host, timeout) =>
    ⟨host, source.trace, workDir, source.timeout.getD timeout, source.deadline⟩

namespace Generation

variable {σ : Type}

def askModules (rules : PoolRules σ) (base : RequestBase) (workloadKey : Option ModuleKey) :
    Briefings → ModuleResults → Pool σ → Except GenerationError ModuleResults × Pool σ
  | [], a, pool => (.ok a, pool)
  | (text, briefing) :: rest, a, pool =>
      let key : ModuleKey := ⟨text⟩
      match base.request briefing with
      | .error e => (.error e, pool)
      | .ok request =>
          match pool.ask rules key request with
          | (.error fault, pool) => (.error fault.error, pool)
          | (.ok response, pool) =>
              match a.add key workloadKey briefing response with
              | .error e => (.error e, pool)
              | .ok a => askModules rules base workloadKey rest a pool

/-- A failure to kill a plugin comes before what happened earlier, which it keeps. -/
def withTeardown {α : Type} (outcome : Except GenerationError α) :
    List PluginError → Except GenerationError α
  | [] => outcome
  | failures =>
      match outcome with
      | .ok _ => .error (.teardown none failures)
      | .error primary => .error (.teardown (some primary) failures)

def collect (rules : PoolRules σ) (base : RequestBase) (plan : Plan) (world : World σ) :
    Except GenerationError ModuleResults × World σ :=
  let (outcome, pool) := askModules rules base plan.workloadKey plan.briefings .empty (.start world)
  let (failures, world) := pool.close rules
  (withTeardown outcome failures, world)

end Generation

end ResourceGraph
