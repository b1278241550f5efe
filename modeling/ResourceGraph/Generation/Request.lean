import ResourceGraph.Briefing
import ResourceGraph.Generation.Error
import ResourceGraph.Plugin.Message
import ResourceGraph.Yaml.Writer

namespace ResourceGraph

def Accessory.document? (a : Accessory) : Option Bytes :=
  if Yaml.Writer.canWrite false a.value then
    some (Bytes.ofText (Yaml.Writer.document a.entries))
  else none

def Config.document (config : Config) : Bytes :=
  Bytes.ofText (Yaml.Writer.document (Yaml.Value.ofMembers config))

def SecretStore.document (s : SecretStore) : Bytes :=
  Config.document [("provider", .object s.provider)]

def Accessory.documentOr (fault : GenerationFault) :
    Option Accessory → Except GenerationError (Option Bytes)
  | none => .ok none
  | some a =>
      match a.document? with
      | some bytes => .ok (some bytes)
      | none => .error (.config fault)

structure RequestBase where
  project : String
  stack : String
  app : String
  workload : Option Bytes
  secretStore : Option Bytes
  deriving DecidableEq, Repr

namespace RequestBase

def new (project stack app : String) (workload : Option Accessory) (store : Option SecretStore) :
    Except GenerationError RequestBase := do
  let workload ← Accessory.documentOr .unwritableWorkload workload
  return ⟨project, stack, app, workload, store.map SecretStore.document⟩

def request (base : RequestBase) (briefing : Briefing) : Except GenerationError Request := do
  let devConfig ← Accessory.documentOr .unwritableBlock briefing.block
  return {
    project := base.project
    stack := base.stack
    app := base.app
    workload := base.workload
    devConfig
    platformConfig := briefing.platform.map fun p => Config.document p.config
    context := briefing.context.map Config.document
    secretStore := base.secretStore }

end RequestBase

end ResourceGraph
