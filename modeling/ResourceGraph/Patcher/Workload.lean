import ResourceGraph.Generation.Error
import ResourceGraph.Patcher
import ResourceGraph.Resource

namespace ResourceGraph

/-- A decimal without fraction that fits a signed 64-bit word becomes an integer. The upper limit is
the double `2 ^ 63`, which becomes the largest integer. -/
def Number.normalize : Number → Number
  | .int n => .int n
  | .float d =>
      match d.toInt? with
      | some n =>
          if -0x8000000000000000 ≤ n ∧ n ≤ 0x8000000000000000 then .int (min n 0x7FFFFFFFFFFFFFFF)
          else .float d
      | none => .float d

namespace Json

mutual

def normalize : Json → Json
  | .number n => .number n.normalize
  | .array items => .array (normalizeItems items)
  | .object members => .object (normalizeMembers members)
  | x => x

def normalizeItems : List Json → List Json
  | [] => []
  | x :: rest => x.normalize :: normalizeItems rest

def normalizeMembers : List (String × Json) → List (String × Json)
  | [] => []
  | (k, x) :: rest => (k, x.normalize) :: normalizeMembers rest

end
end Json

namespace WorkloadPatch

def nested? : List String → Dict Json → Option Json
  | [], _ => none
  | [last], members => members.get? last
  | name :: rest@(_ :: _), members =>
      match members.get? name with
      | some (.object inner) => nested? rest inner
      | _ => none

def pathText (path : List String) : String := ".".intercalate path

/-- Put a value at a path; missing objects on the way are created, what is no object is refused. -/
def putNested (parents : List String) (value : Json) :
    List String → Dict Json → Except StructureFault (Dict Json)
  | [], members => .ok members
  | [last], members => .ok (members.insert last value)
  | name :: rest@(_ :: _), members => do
      let inner ← match members.get? name with
        | none => pure []
        | some (.object inner) => pure inner
        | some _ => throw (.notAnObject (pathText parents))
      let inner ← putNested parents value rest inner
      return members.insert name (.object inner)

def stringEntries (path : List String) : Dict Json → Except StructureFault (Dict Json)
  | [] => .ok []
  | (k, v) :: rest =>
      match v with
      | .string _ => (stringEntries path rest).map ((k, v) :: ·)
      | _ => .error (.notAString (pathText path) k)

/-- Set the entries of a patch, or delete those whose value means removal. -/
def mergeEntries (entries : Dict Json) : Dict String → Dict Json
  | [] => entries
  | (k, v) :: rest =>
      if v = removalValue then mergeEntries (entries.erase k) rest
      else mergeEntries (entries.insert k (.string v)) rest

/-- Patch the table of texts at a path. A table that is absent stays so when the patch leaves it
without entries. -/
def patchTable (path : List String) (patch : Dict String) (attributes : Dict Json) :
    Except StructureFault (Dict Json) := do
  let present := nested? path attributes
  let entries ← match present with
    | none | some .null => pure []
    | some (.object members) => stringEntries path members
    | some _ => throw (.notAStringMap (pathText path))
  let merged := mergeEntries entries patch
  -- A null in the place of the table is present: it becomes an empty table.
  if present.isNone && merged.isEmpty then return attributes
  putNested path.dropLast (.object merged) path attributes

def patchTable? (path : List String) (patch : Option (Dict String)) (attributes : Dict Json) :
    Except StructureFault (Dict Json) :=
  match patch with
  | none => .ok attributes
  | some patch => patchTable path patch attributes

def labels : List String := ["metadata", "labels"]

def annotations : List String := ["metadata", "annotations"]

def podLabels : List String := ["spec", "template", "metadata", "labels"]

def podAnnotations : List String := ["spec", "template", "metadata", "annotations"]

/-- Patch labels, labels of pods, annotations and annotations of pods, in this order. -/
def patchTables (p : Patcher) (attributes : Dict Json) : Except StructureFault (Dict Json) := do
  let attributes ← patchTable? labels p.labels attributes
  let attributes ← patchTable? podLabels p.podLabels attributes
  let attributes ← patchTable? annotations p.annotations attributes
  patchTable? podAnnotations p.podAnnotations attributes

def entryName? : Json → Option String
  | .object members => (Dict.get? members "name").bind Json.asString?
  | _ => none

def keepEntries (removals : List Variable) (env : List Json) : List Json :=
  env.filter fun entry =>
    match entryName? entry with
    | some name => !removals.any (·.name == name)
    | none => true

/-- New entries stand before the existing ones, in the order of the patch. -/
def patchEnv (removals additions : List Variable) (env : Option (List Json)) : Option (List Json) :=
  let kept := env.map (keepEntries removals)
  -- What is missing is created for additions only.
  if additions.isEmpty then kept else some (additions.map Variable.toJson ++ kept.getD [])

def patchContainer (id : String) (removals additions : List Variable) :
    Json → Except PatchFault Json
  | .object members => do
      let env ← match Dict.get? members "env" with
        | none => pure none
        | some (.array items) => pure (some items)
        | some _ => throw (.envNotAList id ((entryName? (.object members)).getD ""))
      return .object (match patchEnv removals additions env with
        | some items => Dict.insert members "env" (.array items)
        | none => members)
  | _ => .error (.containerNotAnObject id)

def patchContainers (id : String) (removals additions : List Variable) :
    List Json → Except PatchFault (List Json)
  | [] => .ok []
  | c :: rest => do
      let c ← patchContainer id removals additions c
      let cs ← patchContainers id removals additions rest
      return c :: cs

/-- Change the array of containers at its path; there must be one. -/
def patchContainersAt (id : String) (f : List Json → Except PatchFault (List Json)) :
    List String → Dict Json → Except PatchFault (Dict Json)
  | [], _ => .error (.noContainers id)
  | [last], members =>
      match members.get? last with
      | some (.array items) => (f items).map fun items => members.insert last (.array items)
      | _ => .error (.noContainers id)
  | name :: rest@(_ :: _), members =>
      match members.get? name with
      | some (.object inner) =>
          (patchContainersAt id f rest inner).map fun inner => members.insert name (.object inner)
      | _ => .error (.noContainers id)

def containers : List String := ["spec", "template", "spec", "containers"]

def patchVariables (id : String) (environment : Option (List Variable))
    (attributes : Dict Json) : Except PatchFault (Dict Json) :=
  match environment with
  | none => .ok attributes
  | some es =>
      let removals := es.filter Variable.isRemoval
      let additions := es.filter fun e => !e.isRemoval
      patchContainersAt id (patchContainers id removals additions) containers attributes

end WorkloadPatch

namespace Patcher

def patchStructure (p : Patcher) (workload : Resource) : Except GenerationError Resource := do
  -- Numbers are normalised throughout, also where nothing is patched.
  let attributes := Json.normalizeMembers workload.attributes
  let attributes ←
    (WorkloadPatch.patchTables p attributes).mapError (.unstructured workload.id)
  let attributes ←
    (WorkloadPatch.patchVariables workload.id p.environment attributes).mapError .patch
  return { workload with attributes }

end Patcher

end ResourceGraph
