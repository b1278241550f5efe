import ResourceGraph.Briefing
import ResourceGraph.Patcher
import ResourceGraph.Plugin.Message
import ResourceGraph.Resource.Mark

namespace ResourceGraph

/-- What YAML bytes denote; none if they are not YAML text. -/
def Schema.ofYamlBytes? {α : Type} (s : Schema α) (bytes : Bytes) : Option α :=
  bytes.text?.bind s.ofYamlText?

/-- The resources other than the workload in the order of their arrival, and the patchers. -/
structure ModuleResults where
  workload : Option Resource
  resources : List Resource
  patchers : List Patcher
  deriving DecidableEq, Repr

namespace ModuleResults

def empty : ModuleResults := ⟨none, [], []⟩

/-- The workload among the resources of its module, and the rest. -/
def splitWorkload : List Resource → Option Resource × List Resource
  -- An only resource needs no mark.
  | [r] => (some r, [])
  | rs => (rs.find? Resource.isWorkload, rs.eraseP Resource.isWorkload)

def decodeResource (key : ModuleKey) (bytes : Bytes) : Except GenerationError Resource :=
  match Resource.schema.ofYamlBytes? bytes with
  | some r => .ok r
  | none => .error (.invocation (.protocol (.malformedResource key.text)))

def decodePatcher (key : ModuleKey) (bytes : Bytes) : Except GenerationError Patcher :=
  match Patcher.schema.ofYamlBytes? bytes with
  | some p => .ok p
  | none => .error (.invocation (.protocol (.malformedPatcher key.text)))

def applyPolicy (policy : Option HealthPolicy) (resources : List Resource) : List Resource :=
  match policy with
  | none => resources
  | some p => resources.map fun r => if p.appliesTo r then r.withHealthPolicy p else r

/-- A workload is marked, and follows the policy of its own module whatever its kind. -/
def markedWorkload (policy : Option HealthPolicy) (r : Resource) : Resource :=
  match policy with
  | none => r.asWorkload
  | some p => r.asWorkload.withHealthPolicy p

def addResources (a : ModuleResults) (fromWorkload : Bool) (policy : Option HealthPolicy)
    (decoded : List Resource) : ModuleResults :=
  let (workload, plain) := if fromWorkload then splitWorkload decoded else (none, decoded)
  { a with
    workload := (workload.map (markedWorkload policy)).or a.workload
    -- The policy reaches what earlier modules have returned as well.
    resources := applyPolicy policy (a.resources ++ plain) }

def add (a : ModuleResults) (key : ModuleKey) (workloadKey : Option ModuleKey)
    (briefing : Briefing) (response : Response) : Except GenerationError ModuleResults := do
  let decoded ← response.resources.mapM (decodeResource key)
  let a := a.addResources (workloadKey == some key) briefing.healthPolicy decoded
  match response.patcher with
  | none => return a
  | some bytes => return { a with patchers := a.patchers ++ [← decodePatcher key bytes] }

end ModuleResults

end ResourceGraph
