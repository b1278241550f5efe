import ResourceGraph.ModelError
import ResourceGraph.Plugin.Error
import ResourceGraph.Text.Hidden

namespace ResourceGraph

inductive SecretFault where
  | malformed
  | noStore (secret : String)
  | malformedStore
  | unsupportedProvider (secret : String) (providers : List String)
  | notAReference (secret name : String)
  | unknownKey (secret key : String)
  | noValue (secret reference : String)
  | unsupportedType (secret type : String)
  | missingKey (secret type key : String)
  deriving DecidableEq, Repr

/-- A text in double quotes, its quotes, backslashes and characters that cannot be seen escaped. -/
def quotedText (s : String) : String :=
  let escape (c : Char) : List Char :=
    if c = '"' then ['\\', '"']
    else if c = '\\' then ['\\', '\\']
    else if c = '\n' then ['\\', 'n']
    else if c = '\r' then ['\\', 'r']
    else if c = '\t' then ['\\', 't']
    else if c.toNat = 0 then ['\\', '0']
    else if Text.isHidden c then ['\\', 'u', '\x7b'] ++ Nat.toDigits 16 c.toNat ++ ['\x7d']
    else [c]
  String.ofList ('"' :: s.toList.flatMap escape ++ ['"'])

def SecretFault.message : SecretFault → String
  | .malformed => "invalid workload secrets: the value does not have the expected form"
  | .noStore secret =>
      s!"secret {secret} references an external store but the workspace has no secret store"
  | .malformedStore => "invalid fake secret store: the value does not have the expected form"
  | .unsupportedProvider secret providers =>
      s!"secret {secret}: unsupported secret store provider [" ++
        ", ".intercalate (providers.map quotedText) ++ "]"
  | .notAReference secret name => s!"secret {secret}: value of {name} must start with ref://"
  | .unknownKey secret key => s!"secret {secret}: key {key} not found in secret store"
  | .noValue secret reference => s!"secret {secret}: no value for {reference}"
  | .unsupportedType secret type => s!"secret {secret}: unsupported secret type {type}"
  | .missingKey secret type key => s!"secret {secret} of type {type} requires {key}"

inductive GenerationFault where
  | model (error : ModelError)
  | shortGitUrl (url module : String)
  | noSource (module : String)
  | secret (fault : SecretFault)
  | importedTwice (id first second module : String)
  | unwritableWorkload
  | unwritableBlock
  | namelessProject
  | namelessApp
  | idsChanged
  | orderer (message : String)
  deriving DecidableEq, Repr

def GenerationFault.message : GenerationFault → String
  | .model error => error.message
  | .shortGitUrl url module => s!"git url {url} of module {module} needs at least two path segments"
  | .noSource module => s!"dependency of module {module} declares neither an oci nor a git source"
  | .secret fault => fault.message
  | .importedTwice id first second module =>
      s!"resource {id} is imported as both {first} and {second} (module {module})"
  | .unwritableWorkload => "marshal workload failed: YAML error: a key cannot be written"
  | .unwritableBlock => "marshal dev config failed: YAML error: a key cannot be written"
  | .namelessProject => "project name must not be empty"
  | .namelessApp => "app name must not be empty"
  | .idsChanged => "resource orderer changed the set of resource IDs"
  | .orderer message => message

inductive OperationFault where
  | testFailed
  | invalidFrom
  | invalidPath
  | moveInsideItself
  deriving DecidableEq, Repr

def OperationFault.message : OperationFault → String
  | .testFailed => "value did not match"
  | .invalidFrom => "\"from\" path is invalid"
  | .invalidPath => "path is invalid"
  | .moveInsideItself => "cannot move the value inside itself"

inductive PatchFault where
  | malformedMerge (id : String)
  | malformedPatch (id : String)
  | operation (id path : String) (fault : OperationFault)
  | notAnObject (id : String)
  | noContainers (id : String)
  | containerNotAnObject (id : String)
  | envNotAList (id container : String)
  | raised (message : String)
  deriving DecidableEq, Repr

/-- The path of an operation stands in single quotes. -/
def PatchFault.message : PatchFault → String
  | .malformedMerge id => s!"merge patch to:{id} failed with error the payload is not JSON"
  | .malformedPatch id => s!"decode json patch for {id} failed with error the payload is no patch"
  | .operation id path fault =>
      s!"apply json patch to:{id} failed with error operation '/0' failed at path '{path}': " ++
        fault.message
  | .notAnObject id => s!"patched attributes of {id} are not an object"
  | .noContainers id => s!"failed to get containers from workload:{id}"
  | .containerNotAnObject id => s!"failed to get container from workload:{id}, not an object"
  | .envNotAList id container =>
      s!"failed to get env from workload:{id}, container:{container}, not a list"
  | .raised message => message

/-- Why a workload cannot be patched as an unstructured object. -/
inductive StructureFault where
  | notAnObject (path : String)
  | notAString (path key : String)
  | notAStringMap (path : String)
  deriving DecidableEq, Repr

def StructureFault.message : StructureFault → String
  | .notAnObject path => s!"{path} is not an object"
  | .notAString path key => s!"{path}.{key} is not a string"
  | .notAStringMap path => s!"{path} is not a string map"

inductive GenerationError where
  | config (fault : GenerationFault)
  | moduleNotFound (module : String)
  | invocation (error : PluginError)
  | patch (fault : PatchFault)
  | unsupportedPatchType (name : String)
  | unstructured (id : String) (fault : StructureFault)
  | invalidWorkspace (error : ModelError)
  | panic (message : String)
  | unknownPanic
  | teardown (primary : Option GenerationError) (failures : List PluginError)
  deriving Repr

inductive ErrorCategory where
  | configuration
  | patch
  deriving DecidableEq, Repr

namespace GenerationError

/-- A fault of a workspace is told apart from other faults of the model. -/
def ofModel : ModelError → GenerationError
  | .invalidWorkspace workspace fault => .invalidWorkspace (.invalidWorkspace workspace fault)
  | error => .config (.model error)

def message : GenerationError → String
  | .config fault => "config error: " ++ fault.message
  | .moduleNotFound module => s!"can not find module {module} in dependencies"
  | .invocation error => "plugin invocation failed: " ++ error.message
  | .patch fault => "patch error: " ++ fault.message
  | .unsupportedPatchType name => s!"unsupported patch type:{name}"
  | .unstructured id fault =>
      s!"failed to convert workload {id} to unstructured: " ++ fault.message
  | .invalidWorkspace error => "invalid workspace: " ++ error.message
  | .panic message => s!"call modules panic:{message}"
  | .unknownPanic => "call modules unknown panic"
  | .teardown none failures =>
      "kill modules failed. " ++ "; ".intercalate (failures.map PluginError.message)
  | .teardown (some primary) failures =>
      "kill modules failed " ++ primary.message ++ ". " ++
        "; ".intercalate (failures.map PluginError.message)

/-- Errors of configuration, to which unknown modules belong, are told apart from those of
patches. -/
def category? : GenerationError → Option ErrorCategory
  | .config _ | .moduleNotFound _ => some .configuration
  | .patch _ | .unsupportedPatchType _ => some .patch
  | _ => none

end GenerationError

end ResourceGraph
