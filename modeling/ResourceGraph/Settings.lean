import ResourceGraph.Document
import ResourceGraph.Files
import ResourceGraph.ModuleKey
import ResourceGraph.Plugin.Error
import ResourceGraph.Text.Blank

namespace ResourceGraph

/-- Timeouts are in seconds. Programs may be given by module key; all others are below the modules
directory. -/
structure Settings where
  modulesDirectory : Option String
  invokeTimeout : Nat
  programs : Dict String
  deriving DecidableEq, Repr

/-- What the process finds around it: its home directory, what overrides that and the place of the
settings, and the files. -/
structure Environment where
  userHome : Option String
  homeOverride : Option String
  settingsPath : Option String
  files : Files

namespace Document

/-- An integer of 64 bits without sign. A YAML scalar has no minus, and is plain, or literal under
the tag of integers. -/
def natural? (d : Document) : Option Nat :=
  let inRange (n : Int) : Option Nat :=
    if 0 ≤ n ∧ n < 0x10000000000000000 then some n.toNat else none
  let unsigned (text : String) : Option Nat :=
    if text.startsWith "-" then none else (Yaml.Plain.integer? text.toList).bind inRange
  match d with
  | .json _ (.number (.int n)) => inRange n
  | .yaml _ (.scalar _ .plain text) => unsigned text
  | .yaml _ (.scalar (some (.standard .int)) .literal text) => unsigned text
  | _ => none

end Document

namespace Settings

def defaultInvokeTimeout : Nat := 60

def default : Settings := ⟨none, defaultInvokeTimeout, []⟩

def form : Form :=
  .record [("modulesDir", .whole), ("invokeTimeoutSecs", .whole), ("plugins", .whole)]

def read? (d : Document) : Option Settings := do
  let fields ← d.record? form
  return {
    modulesDirectory := ← fields.optional? "modulesDir" Document.text?
    invokeTimeout :=
      ← fields.withDefault? "invokeTimeoutSecs" defaultInvokeTimeout Document.natural?
    programs := ← fields.withDefault? "plugins" [] (Document.dict? Document.text?) }

def schema : Schema Settings := ⟨form, read?⟩

def toJson (s : Settings) : Json :=
  .record [Json.fieldOf "modulesDir" s.modulesDirectory .string,
    Json.field "invokeTimeoutSecs" (.ofInt s.invokeTimeout),
    Json.fieldUnless s.programs.isEmpty "plugins" (.ofStringDict s.programs)]

def ofText? (text : String) : Option Settings :=
  if Text.allBlank text then some default else schema.ofYamlText? text

end Settings

namespace Environment

/-- The directory of the program itself. An empty override counts as none. -/
def home (env : Environment) : Except SettingsError String :=
  match env.homeOverride.filter fun path => !path.isEmpty with
  | some path => .ok path
  | none =>
      match env.userHome with
      | some path => .ok (Path.join path ".kusion")
      | none => .error .noHome

/-- The settings file: the given one if it exists, or else the first of two in the home. -/
def settingsFile (env : Environment) : Except SettingsError (Option String) :=
  match env.settingsPath.filter env.files.contains with
  | some path => .ok (some path)
  | none => do
      let home ← env.home
      return (["config.yaml", "config.yml"].map (Path.join home)).find? env.files.contains

/-- The settings of the settings file, or the default without one. -/
def settings (env : Environment) : Except SettingsError Settings := do
  match ← env.settingsFile with
  | none => return .default
  | some path =>
      let text ← (env.files.readText path).mapError fun fault => .unreadable fault.message
      match Settings.ofText? text with
      | some settings => return settings
      | none => throw (.malformed path)

end Environment

namespace Settings

def modulesRoot (s : Settings) (env : Environment) : Except SettingsError String :=
  match s.modulesDirectory with
  | some path => .ok path
  | none => env.home.map fun home => Path.join home "modules"

def programParts (key : ModuleKey) : List String :=
  key.namespace?.toList ++ [key.moduleName, key.version,
    "kusion-module-" ++ key.moduleName ++ "_" ++ key.version]

def programPath (s : Settings) (env : Environment) (key : ModuleKey) :
    Except SettingsError String :=
  match s.programs.get? key.text with
  | some path => .ok path
  | none => (s.modulesRoot env).map fun root => (programParts key).foldl Path.join root

end Settings

end ResourceGraph
