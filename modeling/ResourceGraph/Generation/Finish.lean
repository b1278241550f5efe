import ResourceGraph.Generation.Plan
import ResourceGraph.KindOrder
import ResourceGraph.ModuleResults
import ResourceGraph.Patcher.Attributes
import ResourceGraph.Patcher.Workload

namespace ResourceGraph

/-- A pass over all resources that settles their order and dependencies. -/
abbrev Orderer := List Resource → Except GenerationError (List Resource)

def Orderer.ofKinds (kinds : KindOrder) : Orderer := fun resources => .ok (kinds.order resources)

namespace Patcher

def patchAt (p : Patcher) : Nat → List Resource → Except GenerationError (List Resource)
  | _, [] => .ok []
  | 0, r :: rest => (p.patchStructure r).map (· :: rest)
  | i + 1, r :: rest => (p.patchAt i rest).map (r :: ·)

/-- Apply all of a patcher: to the workload, if there is one, and to resources by id. -/
def patch (p : Patcher) (workload : Option Nat) (resources : List Resource) :
    Except GenerationError (List Resource) := do
  let resources ← match workload with
    | some i => p.patchAt i resources
    | none => pure resources
  p.patchAttributes resources

def patchAll (workload : Option Nat) :
    List Patcher → List Resource → Except GenerationError (List Resource)
  | [], resources => .ok resources
  | p :: rest, resources => do
      let resources ← p.patch workload resources
      patchAll workload rest resources

end Patcher

/-- Order resources; the ids have to stay the same, each as often as before. -/
def Orderer.run (orderer : Orderer) (resources : List Resource) :
    Except GenerationError (List Resource) := do
  let ordered ← orderer resources
  -- A pass may come from the caller, so its answer is checked.
  if !(ordered.map Resource.id).isPerm (resources.map Resource.id) then throw (.config .idsChanged)
  return ordered

namespace Plan

/-- The resources of the plan, then the workload, then all others, as they were returned. -/
def collected (plan : Plan) (a : ModuleResults) : List Resource :=
  plan.resources ++ a.workload.toList ++ a.resources

def workloadIndex (plan : Plan) (a : ModuleResults) : Option Nat :=
  a.workload.map fun _ => plan.resources.length

def finish (plan : Plan) (orderer : Orderer) (a : ModuleResults) :
    Except GenerationError (List Resource) := do
  let patched ← Patcher.patchAll (plan.workloadIndex a) a.patchers (plan.collected a)
  -- An imported resource has no kind left by which it could be ordered.
  orderer.run (patched.map (Resource.markImported plan.imported))

end Plan

end ResourceGraph
