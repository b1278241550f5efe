import ResourceGraph.Plugin.Host
import ResourceGraph.Plugin.Module

/-!
Plugins as programs that read and write lines. A call writes one line and reads one: the oldest
that the program has written and nobody has read. A caller that gives up leaves the line to those
who call later, which is why a reply carries the trace of its call.
-/

namespace ResourceGraph

/-- A program that answers lines: the lines that it writes, or none when it ends instead. -/
abbrev Program (σ : Type) := σ → String → Option (List String × σ)

def Module.program {σ : Type} (m : Module σ) : Program σ := fun s line =>
  let (replies, s) := m.replies s [line]
  some (replies.map Reply.line, s)

def Call.outcome (call : Call) (key : ModuleKey) (line : String) : Except CallFault Response :=
  match Reply.ofLine? (Text.trim line) with
  | none => .error (.plugin (.protocol (.malformedReply key.text)))
  | some reply =>
      if reply.trace ≠ call.trace then
        .error (.plugin (.protocol (.traceMismatch key.text call.trace reply.trace)))
      else
        match reply.error, reply.response with
        | some message, _ => .error (.plugin (.remote key.text message))
        | none, some response => .ok response
        | none, none => .error (.plugin (.emptyResponse key.text))

/-- A running program, or one that has ended, and the lines that it has written and nobody has
read. -/
structure Connection (σ : Type) where
  program : Option σ
  unread : List String

namespace Connection

variable {σ : Type}

def send (p : Program σ) (state : σ) (unread : List String) (line : String) : Connection σ :=
  match p state line with
  | some (written, state) => ⟨some state, unread ++ written⟩
  | none => ⟨none, unread⟩

/-- The milliseconds between a line and its answer: some time passes, so that nothing is answered
within no time at all. -/
def answerDelay : Nat := 1

/-- Call a plugin. A program that runs and writes nothing never answers. -/
def react (p : Program σ) (key : ModuleKey) (c : Connection σ) (call : Call) :
    Reaction (Connection σ) :=
  match c.program with
  | none =>
      ⟨some 0, .error (.plugin (.disconnected key.text "Broken pipe (os error 32)")), c, c⟩
  | some state =>
      let sent := send p state c.unread call.line
      match sent.unread with
      | line :: rest =>
          ⟨some answerDelay, call.outcome key line, { sent with unread := rest }, sent⟩
      | [] =>
          -- The end of a program is noticed, its silence is not.
          ⟨if sent.program.isSome then none else some answerDelay,
            .error (.plugin (.exited key.text)), sent, sent⟩

end Connection

end ResourceGraph
