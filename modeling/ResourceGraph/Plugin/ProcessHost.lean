import ResourceGraph.Plugin.Connection
import ResourceGraph.Settings

namespace ResourceGraph

/-- What a line of programs needs to run: the settings, the files around them, which files can be
run and how a program answers. -/
structure ProcessHost (σ : Type) where
  settings : Settings
  environment : Environment
  executables : Dict σ
  answer : Program σ

namespace ProcessHost

variable {σ : Type}

def start (h : ProcessHost σ) (key : ModuleKey) (workDir : String) :
    Except PluginError (Connection σ) := do
  let path ← (h.settings.programPath h.environment key).mapError .settings
  let program := h.executables.get? path
  -- A missing program is noticed before a missing directory, and what cannot run last.
  if program.isNone && !h.environment.files.isFile path then throw (.notFound key.text path)
  if !h.environment.files.contains workDir then
    throw (.notStarted key.text FileFault.missing.message)
  match program with
  | some state => return ⟨some state, []⟩
  | none => throw (.notStarted key.text "Permission denied (os error 13)")

def host (h : ProcessHost σ) : Host (Dict (Connection σ)) where
  launch running key workDir :=
    match h.start key workDir with
    | .ok c => (.ok (), running.insert key.text c)
    | .error e => (.error e, running)
  react running key call :=
    let r := Connection.react h.answer key ((running.get? key.text).getD ⟨none, []⟩) call
    ⟨r.delay, r.outcome, running.insert key.text r.finished, running.insert key.text r.abandoned⟩
  kill running key := (.ok (), running.erase key.text)

end ProcessHost

end ResourceGraph
