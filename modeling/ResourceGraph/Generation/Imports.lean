import ResourceGraph.Generation.Error
import ResourceGraph.Workspace.Effective

namespace ResourceGraph.Imports

def member : String := "importedResources"

def addEntries (module : String) :
    Dict String → Dict String → Except GenerationFault (Dict String)
  | imported, [] => .ok imported
  | imported, (id, target) :: rest =>
      match imported.get? id with
      | none => addEntries module (imported.insert id target) rest
      | some known =>
          if known = target then addEntries module imported rest
          else .error (.importedTwice id known target module)

def addModules : Dict String → Dict Config → Except GenerationFault (Dict String)
  | imported, [] => .ok imported
  | imported, (module, config) :: rest => do
      let entries ← (Config.stringMap config member).mapError fun fault =>
        .model (.invalidConfig fault)
      let imported ← addEntries module imported entries
      addModules imported rest

def ofConfigs (configs : Dict Config) : Except GenerationError (Dict String) :=
  (addModules [] configs).mapError .config

end ResourceGraph.Imports
