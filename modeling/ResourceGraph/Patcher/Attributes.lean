import ResourceGraph.Json.MergePatch
import ResourceGraph.Json.Patch
import ResourceGraph.Json.Reader
import ResourceGraph.Patcher
import ResourceGraph.Resource

namespace ResourceGraph

namespace AttributePatch

def payloadJson? (p : AttributePatch) : Option Json :=
  (Json.read? p.payloadText).bind fun x => (Document.ofJson x).json?

def patched (p : AttributePatch) (id : String) (attributes : Dict Json) :
    Except GenerationError (Dict Json) := do
  let doc ← match p.type with
    | .mergePatch =>
        match p.payloadJson? with
        | some patch => pure (Json.merge (.object attributes) patch)
        | none => throw (.patch (.malformedMerge id))
    | .jsonPatch =>
        match p.payloadJson? with
        | some (.array operations) =>
            (Json.applyAllRelaxed (.object attributes) operations).mapError fun
              | .malformed => .patch (.malformedPatch id)
              | .operation path fault => .patch (.operation id path fault)
        | _ => throw (.patch (.malformedPatch id))
    | .unsupported name => throw (.unsupportedPatchType name)
  -- Either patch may leave a value that is no object.
  match doc with
  | .object members => return members
  | _ => throw (.patch (.notAnObject id))

def apply (p : AttributePatch) (id : String) :
    List Resource → Except GenerationError (List Resource)
  | [] => .ok []
  | r :: rest =>
      if r.id = id then (p.patched id r.attributes).map fun a => { r with attributes := a } :: rest
      else (p.apply id rest).map (r :: ·)

def applyAll : Dict AttributePatch → List Resource → Except GenerationError (List Resource)
  | [], resources => .ok resources
  | (id, p) :: rest, resources => do
      let resources ← p.apply id resources
      applyAll rest resources

end AttributePatch

namespace Patcher

def patchAttributes (p : Patcher) (resources : List Resource) :
    Except GenerationError (List Resource) :=
  AttributePatch.applyAll (p.attributePatches.getD []) resources

end Patcher

end ResourceGraph
