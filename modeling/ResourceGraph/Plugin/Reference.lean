import ResourceGraph.ModuleResults
import ResourceGraph.Plugin.Module
import ResourceGraph.Yaml.Writer

namespace ResourceGraph.Reference

def natural? (v : Yaml.Value) : Option Nat :=
  match v.untagged with
  | .number (.int (.ofNat n)) => some n
  | _ => none

def deployment (app nameSpace : String) (block : Accessory) : Resource :=
  let image := ((block.get? "image").bind Yaml.Value.asString?).getD "nginx:latest"
  let replicas := ((block.get? "replicas").bind natural?).getD 1
  let labels := Json.object [("app", .string app)]
  let container := Json.object [("image", .string image), ("name", .string "main")]
  let template := Json.object [("metadata", .object [("labels", labels)]),
    ("spec", .object [("containers", .array [container])])]
  .new ("apps/v1:Deployment:" ++ nameSpace ++ ":" ++ app) .kubernetes
    [("apiVersion", .string "apps/v1"), ("kind", .string "Deployment"),
      ("metadata", .object [("name", .string app), ("namespace", .string nameSpace)]),
      ("spec", .object [("replicas", .ofInt replicas),
        ("selector", .object [("matchLabels", labels)]), ("template", template)])]

def scalarText? : Yaml.Value → Option String
  | .string s => some s
  | .number n => some (Yaml.Writer.numberText n)
  | .infinity negative => some (Yaml.Writer.infinityText negative)
  | .notANumber => some Yaml.Writer.notANumberText
  | .bool b => some (if b then "true" else "false")
  | _ => none

def scalars (block : Accessory) : Dict String :=
  Dict.ofList (block.entries.filterMap fun e => do
    let key ← e.1.asString?
    if key = "_type" then none
    return (key, ← scalarText? e.2))

def configMap (app module nameSpace : String) (block : Accessory) : Resource :=
  let name := app ++ "-" ++ module
  .new ("v1:ConfigMap:" ++ nameSpace ++ ":" ++ name) .kubernetes
    [("apiVersion", .string "v1"), ("data", .ofStringDict (scalars block)),
      ("kind", .string "ConfigMap"),
      ("metadata", .object [("name", .string name), ("namespace", .string nameSpace)])]

def textTable (block : Accessory) (key : String) : Except Failure (Option (Dict String)) :=
  match block.get? key with
  | none => .ok none
  | some v =>
      match v.asTextTable? with
      | some table => .ok (some table)
      | none => .error [key ++ " must be a string map", "the value has another form"]

def patcher? (block : Accessory) : Except Failure (Option Patcher) := do
  let labels ← textTable block "patchLabels"
  let environment ← textTable block "patchEnv"
  if labels.isNone && environment.isNone then return none
  return some ⟨labels, none, none, none,
    environment.map fun table => table.map fun e => ⟨e.1, e.2, none⟩, none⟩

def block (request : Request) : Except Failure Accessory :=
  match request.devConfig with
  | none => .error ["dev config is required"]
  | some bytes =>
      match Accessory.schema.ofYamlBytes? bytes with
      | some a => .ok a
      | none => .error ["decode dev config", "the document has another form"]

def generate (request : Request) : Except Failure Response := do
  let block ← block request
  match (block.get? "fail").bind Yaml.Value.asString? with
  | some message => throw [message]
  | none => pure ()
  let module ← match block.moduleName with
    | .ok name => pure name
    | .error _ => throw ["dev config has no _type"]
  let resource :=
    if module = "service" then deployment request.app request.project block
    else configMap request.app module request.project block
  return .encode [resource] (← patcher? block)

def module : Module Unit := fun s request => (generate request, s)

end ResourceGraph.Reference
