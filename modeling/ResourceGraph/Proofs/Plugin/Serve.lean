import ResourceGraph.Proofs.Plugin.Link
import ResourceGraph.Proofs.Plugin.Stream

/-!
The serve loop over a whole input. Whatever text comes in, it is lines, ended by a line feed with or
without a carriage return, and maybe a last one that is not ended. Each line that is not blank gets
one reply, in order: a call what the module makes of its request, in the state in which the calls
before have left it, and any other line an error without trace. The module is asked for nothing
else.
-/

namespace ResourceGraph

section Blank

open Json

end Blank

section Lines

/-- A line and its end: a line feed, or a carriage return and a line feed. -/
structure EndedLine where
  chars : List Char
  returned : Bool
  feedless : '\n' ∉ chars
  plain : returned = false → chars.getLast? ≠ some '\r'

namespace EndedLine

def body (l : EndedLine) : List Char := l.chars ++ if l.returned then ['\r'] else []

end EndedLine

/-- A text cut into lines, and what follows the last line feed. -/
structure LinedText where
  ended : List EndedLine
  rest : List Char
  feedless : '\n' ∉ rest

namespace LinedText

def chars (t : LinedText) : List Char := (t.ended.flatMap fun l => l.body ++ ['\n']) ++ t.rest

def text (t : LinedText) : String := String.ofList t.chars

def lines (t : LinedText) : List String :=
  (t.ended.map fun l => String.ofList l.chars) ++
    if t.rest = [] then [] else [String.ofList t.rest]

end LinedText

end Lines

namespace Module

variable {σ : Type} {m : Module σ} {s : σ} {line : String} {lines : List String}

def requests (lines : List String) : List Request :=
  (lines.filterMap Call.ofLine?).map Call.request

def after (m : Module σ) (s : σ) (rs : List Request) : σ := (m.outcomes s rs).2

/-- The reply that is due to a line from a module in a state. -/
inductive Due (m : Module σ) (s : σ) : String → Reply → Prop
  | call {line : String} {call : Call} (reads : Call.ofLine? line = some call) :
      Due m s line (call.replyOf (m s call.request).1)
  | malformed {line : String} (detail : String) (reads : Call.ofLine? line = none) :
      Due m s line (.ofError "" ("malformed request frame: " ++ detail))

/-- Replies to lines one by one, from a module that is asked what the calls among the lines ask
for. -/
structure Serves (m : Module σ) (s : σ) (lines : List String) (replies : List Reply) (state : σ) :
    Prop where
  length_eq : replies.length = lines.length
  due : ∀ i line reply, lines[i]? = some line → replies[i]? = some reply →
    Due m (m.after s (requests (lines.take i))) line reply
  state_eq : state = m.after s (requests lines)

theorem after_append (m : Module σ) (s : σ) (rs rs' : List Request) :
    m.after s (rs ++ rs') = m.after (m.after s rs) rs' := by
  rw [after, outcomes_append]
  rfl

theorem requests_cons (line : String) (lines : List String) :
    requests (line :: lines) = requests [line] ++ requests lines := by
  rw [requests, ← List.singleton_append, List.filterMap_append, List.map_append]
  rfl

theorem Serves.cons {reply : Reply} {replies : List Reply} {state : σ} (hdue : Due m s line reply)
    (h : Serves m (m.after s (requests [line])) lines replies state) :
    Serves m s (line :: lines) (reply :: replies) state where
  length_eq := congrArg Nat.succ h.length_eq
  due i line' reply' hline hreply := by
    cases i with
    | zero =>
        obtain rfl := Option.some.inj hline
        obtain rfl := Option.some.inj hreply
        exact hdue
    | succ i =>
        rw [List.take_succ_cons, requests_cons, after_append]
        exact h.due i line' reply' hline hreply
  state_eq := by
    rw [requests_cons, after_append]
    exact h.state_eq

/-- Two broken lines, with a blank one between them and the last not ended. -/
example : (Link.echo.serve () "[\r\n \n]").1.map Reply.trace = ["", ""] := by
  decide +kernel

end Module

end ResourceGraph
