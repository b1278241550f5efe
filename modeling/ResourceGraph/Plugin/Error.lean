namespace ResourceGraph

inductive SettingsError where
  | noHome
  | malformed (path : String)
  | unreadable (reason : String)
  deriving DecidableEq, Repr

def SettingsError.message : SettingsError → String
  | .noHome => "home directory not found, set KUSION_HOME explicitly"
  | .malformed path =>
      s!"failed to parse settings file {path}: the document does not have the expected form"
  | .unreadable reason => s!"IO error: {reason}"

/-- A span of time in milliseconds, with the greatest unit in which it is at least one. -/
def durationText (ms : Nat) : String :=
  if 1000 ≤ ms then
    -- The thousand keeps the zeros in front of the fraction.
    let digits := Nat.toDigits 10 (1000 + ms % 1000)
    let fraction := ((digits.drop 1).reverse.dropWhile (· == '0')).reverse
    let whole := toString (ms / 1000)
    if fraction.isEmpty then whole ++ "s" else whole ++ "." ++ String.ofList fraction ++ "s"
  else if 0 < ms then toString ms ++ "ms"
  else "0ns"

/-- A plugin broke the rules of the exchange. -/
inductive ProtocolFault where
  | malformedReply (key : String)
  | traceMismatch (key sent got : String)
  | malformedResource (key : String)
  | malformedPatcher (key : String)
  deriving DecidableEq, Repr

def ProtocolFault.message : ProtocolFault → String
  | .malformedReply key => s!"malformed reply from {key}: the text is not a reply frame"
  | .traceMismatch key sent got => s!"trace id mismatch from {key}: sent {sent}, got {got}"
  | .malformedResource key =>
      s!"malformed resource from module {key}: the document does not have the expected form"
  | .malformedPatcher key =>
      s!"malformed patcher from module {key}: the document does not have the expected form"

inductive PluginError where
  | notFound (key path : String)
  | notStarted (key reason : String)
  | disconnected (key reason : String)
  | emptyResponse (key : String)
  | remote (key message : String)
  | timeout (key : String) (elapsed : Nat)
  | exited (key : String)
  | protocol (fault : ProtocolFault)
  | notKilled (key reason : String)
  | settings (error : SettingsError)
  deriving DecidableEq, Repr

def PluginError.message : PluginError → String
  | .notFound key path => s!"module plugin for {key} not found at {path}"
  | .notStarted key reason => s!"failed to start module plugin {key}: {reason}"
  | .disconnected key reason => s!"invoke kusion module: {key} failed. {reason}"
  | .emptyResponse key => s!"empty response from module {key}"
  | .remote key message => s!"module {key} returned an error: {message}"
  | .timeout key elapsed =>
      s!"invoke kusion module: {key} timed out after " ++ durationText elapsed
  | .exited key => s!"module plugin {key} exited unexpectedly"
  | .protocol fault => "module protocol error: " ++ fault.message
  | .notKilled key reason => s!"kill module plugin {key} failed: {reason}"
  | .settings error => "Config error: " ++ error.message

end ResourceGraph
