import ResourceGraph.Dict
import ResourceGraph.Plugin.Host

/-!
The plugins of one generation. A plugin is launched when its key is first called and is used again
after that, whatever came of the call; in the end every launched plugin is killed once. A call may
take no longer than its budget.
-/

namespace ResourceGraph

inductive Event where
  | launched (key : ModuleKey) (workDir : String) (started : Bool)
  | called (key : ModuleKey) (call : Call)
  | killed (key : ModuleKey)
  deriving DecidableEq, Repr

/-- The plugins, the clock in milliseconds, and what has happened so far. -/
structure World (σ : Type) where
  plugins : σ
  now : Nat
  journal : List Event

namespace World

variable {σ : Type}

def start (plugins : σ) : World σ := ⟨plugins, 0, []⟩

def calls (w : World σ) : Nat :=
  w.journal.countP fun
    | .called _ _ => true
    | _ => false

end World

/-- How plugins are used: where they come from, the trace of the n-th call, the directory in which
they work, how long a call may take and when all of them have to be over. -/
structure PoolRules (σ : Type) where
  host : Host σ
  trace : Nat → String
  workDir : String
  timeout : Nat
  deadline : Option Nat

/-- The time that a call may take: no more than the timeout, and none after the deadline. -/
def PoolRules.budget {σ : Type} (rules : PoolRules σ) (now : Nat) : Nat :=
  match rules.deadline with
  | some deadline => min rules.timeout (deadline - now)
  | none => rules.timeout

/-- The keys of the launched plugins, and the world around them. -/
structure Pool (σ : Type) where
  handles : Dict Unit
  world : World σ

namespace Pool

variable {σ : Type}

def start (world : World σ) : Pool σ := ⟨[], world⟩

def contains (p : Pool σ) (key : ModuleKey) : Bool := Dict.contains p.handles key.text

/-- Launch the plugin of a key unless it has been launched. -/
def ensure (rules : PoolRules σ) (p : Pool σ) (key : ModuleKey) :
    Except PluginError Unit × Pool σ :=
  if p.contains key then (.ok (), p)
  else
    let (result, plugins) := rules.host.launch p.world.plugins key rules.workDir
    let started := match result with
      | .ok _ => true
      | .error _ => false
    let journal := p.world.journal ++ [.launched key rules.workDir started]
    let world := { p.world with plugins, journal }
    -- A launch that fails leaves no handle, so that a later ask tries again.
    (result, ⟨if started then Dict.insert p.handles key.text () else p.handles, world⟩)

/-- Call a launched plugin. An outcome that takes longer than the budget is not waited for. -/
def call (rules : PoolRules σ) (w : World σ) (key : ModuleKey) (request : Request) :
    Except CallFault Response × World σ :=
  let budget := rules.budget w.now
  let call : Call := ⟨rules.trace w.calls, key.moduleName, request⟩
  let reaction := rules.host.react w.plugins key call
  let journal := w.journal ++ [.called key call]
  match reaction.delay.filter (· ≤ budget) with
  | some delay => (reaction.outcome, ⟨reaction.finished, w.now + delay, journal⟩)
  | none =>
      (.error (.plugin (.timeout key.text budget)), ⟨reaction.abandoned, w.now + budget, journal⟩)

/-- Ask the plugin of a key, which is launched on its first use. -/
def ask (rules : PoolRules σ) (p : Pool σ) (key : ModuleKey) (request : Request) :
    Except CallFault Response × Pool σ :=
  match p.ensure rules key with
  | (.error e, p) => (.error (.plugin e), p)
  | (.ok _, p) =>
      let (outcome, world) := call rules p.world key request
      (outcome, { p with world })

def killAll (rules : PoolRules σ) : List String → World σ → List PluginError × World σ
  | [], w => ([], w)
  | key :: rest, w =>
      let (result, plugins) := rules.host.kill w.plugins ⟨key⟩
      let (failures, w) := killAll rules rest
        { w with plugins, journal := w.journal ++ [.killed ⟨key⟩] }
      -- A plugin that cannot be killed spares none of the others.
      match result with
      | .ok _ => (failures, w)
      | .error e => (e :: failures, w)

def close (rules : PoolRules σ) (p : Pool σ) : List PluginError × World σ :=
  killAll rules (Dict.keys p.handles) p.world

end Pool

end ResourceGraph
