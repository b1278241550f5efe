namespace ResourceGraph

inductive WorkspaceFault where
  | emptyName
  | providerCount (count : Nat)
  | defaultSelects (module : String)
  | emptySelector (module block : String)
  | emptyProject (module block : String)
  | selectedTwice (module project first second : String)
  deriving DecidableEq, Repr

def WorkspaceFault.message : WorkspaceFault → String
  | .emptyName => "empty workspace name"
  | .providerCount count =>
      s!"secret store must configure exactly one provider, found {count}"
  | .defaultSelects module => s!"module {module}: default block must not declare projectSelector"
  | .emptySelector module block =>
      s!"module {module}: patcher block {block} has an empty projectSelector"
  | .emptyProject module block =>
      s!"module {module}: patcher block {block} selects an empty project"
  | .selectedTwice module project first second =>
      s!"module {module}: project {project} is selected by both {first} and {second}"

inductive ConfigFault where
  | selectedTwice (project module first second : String)
  | notAMap (key : String)
  | notAString (key member : String)
  | namelessProject (directory : String)
  deriving DecidableEq, Repr

def ConfigFault.message : ConfigFault → String
  | .selectedTwice project module first second =>
      s!"project {project} is selected by more than one patcher of module {module}: " ++
        s!"{first}, {second}"
  | .notAMap key => s!"{key} must be a map"
  | .notAString key member => s!"value of {key}.{member} must be a string"
  | .namelessProject directory => s!"project in {directory} has no name"

inductive ModelError where
  | missingType
  | invalidType
  | invalidWorkspace (workspace : String) (fault : WorkspaceFault)
  | invalidConfig (fault : ConfigFault)
  | unreadable (path reason : String)
  | malformed
  deriving DecidableEq, Repr

def ModelError.message : ModelError → String
  | .missingType => "can not find '_type' in module config"
  | .invalidType => "'_type' in module config must be a string"
  | .invalidWorkspace workspace fault =>
      s!"invalid config of workspace: {workspace}, " ++ fault.message
  | .invalidConfig fault => "invalid config: " ++ fault.message
  | .unreadable path reason => s!"IO error: {path}\nreason: {reason}"
  | .malformed => "YAML error: the document does not have the expected form"

end ResourceGraph
