import Mathlib.Logic.Relation
import ResourceGraph.Plugin.ProcessHost
import ResourceGraph.Proofs.Generation.Lifecycle
import ResourceGraph.Proofs.Plugin.Frame

/-!
A host and a plugin that run side by side. The host writes one line for each call and waits for a
line, or gives up waiting; the plugin reads lines at any time. What was not waited for stays in the
queues between the two, so that later calls read lines that were written for earlier ones.
-/

namespace ResourceGraph

variable {σ : Type}

section Answers

def Module.outcomes (m : Module σ) : σ → List Request → List (Except Failure Response) × σ
  | s, [] => ([], s)
  | s, request :: rest =>
      let (outcome, s) := m s request
      let (outcomes, s) := m.outcomes s rest
      (outcome :: outcomes, s)

def Call.replyOf (call : Call) : Except Failure Response → Reply
  | .ok response => .ofResponse call.trace response
  | .error failure => .ofError call.trace failure.message

/-- The outcome of a module as its caller sees it. -/
def ModuleKey.received (key : ModuleKey) : Except Failure Response → Except CallFault Response
  | .ok response => .ok response
  | .error failure => .error (.plugin (.remote key.text failure.message))

theorem Module.program_line (m : Module σ) (s : σ) (call : Call) :
    m.program s call.line =
      some ([(call.replyOf (m s call.request).1).line], (m s call.request).2) := by
  have hreply : m.reply s call.line =
      (call.replyOf (m s call.request).1, (m s call.request).2) := by
    simp only [reply, call.ofLine?_line]
    generalize m s call.request = reaction
    obtain ⟨failure | response, s'⟩ := reaction <;> rfl
  simp only [program, replies, call.allBlank_line, if_neg Bool.false_ne_true, hreply,
    List.map_cons, List.map_nil]

theorem Call.outcome_replyOf (call other : Call) (key : ModuleKey)
    (outcome : Except Failure Response) :
    call.outcome key (other.replyOf outcome).line =
      if other.trace = call.trace then key.received outcome
      else .error (.plugin (.protocol (.traceMismatch key.text call.trace other.trace))) := by
  rw [Call.outcome, Reply.trim_line, Reply.ofLine?_line]
  cases outcome <;> by_cases h : other.trace = call.trace <;>
    simp [replyOf, Reply.ofResponse, Reply.ofError, ModuleKey.received, h]

theorem Module.outcomes_append (m : Module σ) (s : σ) (rs rs' : List Request) :
    m.outcomes s (rs ++ rs') =
      ((m.outcomes s rs).1 ++ (m.outcomes (m.outcomes s rs).2 rs').1,
        (m.outcomes (m.outcomes s rs).2 rs').2) := by
  induction rs generalizing s with
  | nil => rfl
  | cons r rs ih => simp [outcomes, ih]

def Module.answers (m : Module σ) (s : σ) (calls : List Call) : List Reply :=
  calls.zipWith Call.replyOf (m.outcomes s (calls.map Call.request)).1

theorem Module.length_outcomes (m : Module σ) (s : σ) (rs : List Request) :
    (m.outcomes s rs).1.length = rs.length := by
  induction rs generalizing s with
  | nil => rfl
  | cons r rs ih => simp [outcomes, ih]

theorem Module.answers_append (m : Module σ) (s : σ) (calls : List Call) (call : Call) :
    m.answers s (calls ++ [call]) = m.answers s calls ++
      [call.replyOf (m (m.outcomes s (calls.map Call.request)).2 call.request).1] := by
  rw [answers, List.map_append, outcomes_append, List.zipWith_append]
  · rfl
  · rw [length_outcomes, List.length_map]

end Answers

/-- A call that is over: what came of it, unless its caller gave up. -/
structure Ended where
  call : Call
  outcome : Option (Except CallFault Response)

namespace Ended

def answer? (e : Ended) : Option (Call × Except CallFault Response) := e.outcome.map (e.call, ·)

theorem filterMap_answer?_some (ended : List Ended) (call : Call)
    (outcome : Except CallFault Response) :
    (ended ++ [Ended.mk call (some outcome)]).filterMap answer? =
      ended.filterMap answer? ++ [(call, outcome)] :=
  List.filterMap_append

theorem filterMap_answer?_none (ended : List Ended) (call : Call) :
    (ended ++ [Ended.mk call none]).filterMap answer? = ended.filterMap answer? :=
  List.filterMap_append.trans (List.append_nil _)

end Ended

/-- A host and a program: the lines that the program has not read yet and those that the host has
not read yet, the call whose answer the host waits for, and the calls that are over. -/
structure Link (σ : Type) where
  requests : List String
  state : σ
  replies : List String
  waiting : Option Call
  ended : List Ended

namespace Link

def start (s : σ) : Link σ := ⟨[], s, [], none, []⟩

def calls (x : Link σ) : List Call := x.ended.map Ended.call ++ x.waiting.toList

/-- What the host or the program does next. -/
inductive Step (p : Program σ) (key : ModuleKey) : Link σ → Link σ → Prop
  | send {x : Link σ} (idle : x.waiting = none) (call : Call) :
      Step p key x { x with requests := x.requests ++ [call.line], waiting := some call }
  | serve {x : Link σ} {line : String} {rest written : List String} {state : σ}
      (requests_eq : x.requests = line :: rest) (serves : p x.state line = some (written, state)) :
      Step p key x { x with requests := rest, state, replies := x.replies ++ written }
  | receive {x : Link σ} {call : Call} {line : String} {rest : List String}
      (waits : x.waiting = some call) (replies_eq : x.replies = line :: rest) :
      Step p key x { x with
        replies := rest
        waiting := none
        ended := x.ended ++ [⟨call, some (call.outcome key line)⟩] }
  | giveUp {x : Link σ} {call : Call} (waits : x.waiting = some call) :
      Step p key x { x with waiting := none, ended := x.ended ++ [⟨call, none⟩] }

abbrev Steps (p : Program σ) (key : ModuleKey) : Link σ → Link σ → Prop :=
  Relation.ReflTransGen (Step p key)

def answered (x : Link σ) : List (Call × Except CallFault Response) :=
  x.ended.filterMap Ended.answer?

/-- The lines on their way: which calls the module has served, and which of its replies have been
read by the callers of which calls. -/
structure Holds (m : Module σ) (key : ModuleKey) (s : σ) (x : Link σ) (served unserved : List Call)
    (read : List (Call × Reply)) (unread : List Reply) : Prop where
  calls_eq : x.calls = served ++ unserved
  answers_eq : m.answers s served = read.map Prod.snd ++ unread
  requests_eq : x.requests = unserved.map Call.line
  state_eq : x.state = (m.outcomes s (served.map Call.request)).2
  replies_eq : x.replies = unread.map Reply.line
  answered_eq : x.answered = read.map fun e => (e.1, e.1.outcome key e.2.line)

section Run

variable {m : Module σ} {key : ModuleKey} {s : σ} {x y : Link σ}

theorem holds_start : Holds m key s (start s) [] [] [] [] where
  calls_eq := rfl
  answers_eq := rfl
  requests_eq := rfl
  state_eq := rfl
  replies_eq := rfl
  answered_eq := rfl

theorem Holds.serve {served more : List Call} {call : Call} {read : List (Call × Reply)}
    {unread : List Reply} (h : Holds m key s x served (call :: more) read unread) :
    Holds m key s
      { x with
        requests := more.map Call.line
        state := (m x.state call.request).2
        replies := x.replies ++ [(call.replyOf (m x.state call.request).1).line] }
      (served ++ [call]) more read (unread ++ [call.replyOf (m x.state call.request).1]) where
  calls_eq := by
    rw [List.append_assoc]
    exact h.calls_eq
  answers_eq := by
    rw [Module.answers_append, h.answers_eq, ← h.state_eq, List.append_assoc]
  requests_eq := rfl
  state_eq := by
    rw [List.map_append, Module.outcomes_append, ← h.state_eq]
    rfl
  replies_eq := by
    rw [h.replies_eq, List.map_append]
    rfl
  answered_eq := h.answered_eq

theorem Holds.exists_step {served unserved : List Call} {read : List (Call × Reply)}
    {unread : List Reply}
    (h : Holds m key s x served unserved read unread) (step : Step m.program key x y) :
    ∃ served unserved read unread, Holds m key s y served unserved read unread := by
  cases step with
  | send idle call =>
      refine ⟨served, unserved ++ [call], read, unread, ?_, h.answers_eq, ?_, h.state_eq,
        h.replies_eq, h.answered_eq⟩
      · have hcalls := h.calls_eq
        rw [calls, idle, Option.toList_none, List.append_nil] at hcalls
        rw [calls, hcalls, Option.toList_some, List.append_assoc]
      · rw [h.requests_eq, List.map_append]
        rfl
  | serve requests_eq serves =>
      obtain ⟨call, more, rfl, rfl, rfl⟩ :=
        List.map_eq_cons_iff.1 (h.requests_eq.symm.trans requests_eq)
      rw [Module.program_line] at serves
      obtain ⟨rfl, rfl⟩ := Prod.mk.inj (Option.some.inj serves)
      exact ⟨_, _, _, _, h.serve⟩
  | @receive call _ _ waits replies_eq =>
      obtain ⟨reply, more, rfl, rfl, rfl⟩ :=
        List.map_eq_cons_iff.1 (h.replies_eq.symm.trans replies_eq)
      refine ⟨served, unserved, read ++ [(call, reply)], more, ?_, ?_, h.requests_eq, h.state_eq,
        rfl, ?_⟩
      · rw [← h.calls_eq]
        simp [calls, waits]
      · rw [h.answers_eq, List.map_append, List.append_assoc]
        rfl
      · rw [answered, Ended.filterMap_answer?_some, List.map_append, ← h.answered_eq]
        rfl
  | giveUp waits =>
      refine ⟨served, unserved, read, unread, ?_, h.answers_eq, h.requests_eq, h.state_eq,
        h.replies_eq, ?_⟩
      · rw [← h.calls_eq]
        simp [calls, waits]
      · rw [answered, Ended.filterMap_answer?_none]
        exact h.answered_eq

theorem exists_holds (steps : Steps m.program key (start s) x) :
    ∃ served unserved read unread, Holds m key s x served unserved read unread := by
  induction steps with
  | refl => exact ⟨[], [], [], [], holds_start⟩
  | tail _ step ih =>
      obtain ⟨_, _, _, _, h⟩ := ih
      exact h.exists_step step

end Run

def outcome? (m : Module σ) (s : σ) (x : Link σ) (i : Nat) : Option (Except Failure Response) :=
  (m.outcomes s (x.calls.map Call.request)).1[i]?

def answeredBefore (x : Link σ) (i : Nat) : Nat := ((x.ended.take i).filterMap Ended.answer?).length

/-- Callers get what the module makes of their own requests, or an error. -/
structure Safe (m : Module σ) (key : ModuleKey) (s : σ) (x : Link σ) : Prop where
  of_ok : ∀ i call response, x.ended[i]? = some ⟨call, some (.ok response)⟩ →
    x.outcome? m s i = some (.ok response)
  of_remote : ∀ i call text message,
    x.ended[i]? = some ⟨call, some (.error (.plugin (.remote text message)))⟩ →
      text = key.text ∧
        ∃ failure, x.outcome? m s i = some (.error failure) ∧ failure.message = message
  /-- As long as nobody has given up, a caller gets exactly what the module makes of its request. -/
  undisturbed : ∀ i call outcome, x.ended[i]? = some ⟨call, some outcome⟩ →
    (∀ e ∈ x.ended.take i, e.outcome ≠ none) →
      ∃ o, x.outcome? m s i = some o ∧ outcome = key.received o
  /-- Once somebody has given up, later callers read what was written for others, and refuse it. -/
  refused : ∀ i call outcome, x.ended[i]? = some ⟨call, some outcome⟩ →
    (∃ e ∈ x.ended.take i, e.outcome = none) →
      ∃ trace, outcome = .error (.plugin (.protocol (.traceMismatch key.text call.trace trace)))
  /-- When the module has read all lines, there is one for a caller that waits. -/
  not_stuck : ∀ call, x.waiting = some call → x.requests = [] → x.replies ≠ []
  /-- A caller that does not give up can be answered. -/
  returns : ∀ call, x.waiting = some call → ∃ y outcome, Steps m.program key x y ∧
    y.ended = x.ended ++ [⟨call, some outcome⟩]

section Answers

variable {m : Module σ} {key : ModuleKey} {s : σ} {x : Link σ} {i : Nat} {call : Call}
  {outcome : Except CallFault Response}

theorem calls_getElem? (hi : x.ended[i]? = some ⟨call, some outcome⟩) :
    x.calls[i]? = some call := by
  have hlt : i < (x.ended.map Ended.call).length := by
    rw [List.length_map]
    exact (List.getElem?_eq_some_iff.1 hi).1
  rw [calls, List.getElem?_append_left hlt, List.getElem?_map, hi]
  rfl

theorem answered_getElem? (hi : x.ended[i]? = some ⟨call, some outcome⟩) :
    x.answered[x.answeredBefore i]? = some (call, outcome) := by
  obtain ⟨hlt, hget⟩ := List.getElem?_eq_some_iff.1 hi
  have hsplit : x.ended.take i ++ ⟨call, some outcome⟩ :: x.ended.drop (i + 1) = x.ended := by
    rw [← hget, ← List.drop_eq_getElem_cons hlt, List.take_append_drop]
  have hanswered : x.answered = (x.ended.take i).filterMap Ended.answer? ++
      (call, outcome) :: (x.ended.drop (i + 1)).filterMap Ended.answer? :=
    (congrArg (List.filterMap Ended.answer?) hsplit.symm).trans List.filterMap_append
  rw [hanswered, answeredBefore, List.getElem?_append_right (Nat.le_refl _), Nat.sub_self]
  rfl

theorem answeredBefore_eq_iff (hi : x.ended[i]? = some ⟨call, some outcome⟩) :
    x.answeredBefore i = i ↔ ∀ e ∈ x.ended.take i, e.outcome ≠ none := by
  have hlength : (x.ended.take i).length = i :=
    List.length_take_of_le (Nat.le_of_lt (List.getElem?_eq_some_iff.1 hi).1)
  have hall : x.answeredBefore i = (x.ended.take i).length ↔ _ := List.filterMap_length_eq_length
  rw [hlength] at hall
  rw [hall]
  refine forall₂_congr fun e _ => ?_
  rw [Ended.answer?, Option.isSome_map, Option.isSome_iff_ne_none]

theorem Holds.exists_answer {served unserved : List Call} {read : List (Call × Reply)}
    {unread : List Reply} (h : Holds m key s x served unserved read unread) {j : Nat}
    (hj : x.answered[j]? = some (call, outcome)) :
    ∃ other o, x.calls[j]? = some other ∧ x.outcome? m s j = some o ∧
      outcome = if other.trace = call.trace then key.received o
        else .error (.plugin (.protocol (.traceMismatch key.text call.trace other.trace))) := by
  rw [h.answered_eq, List.getElem?_map] at hj
  obtain ⟨⟨call', reply⟩, hread, heq⟩ := Option.map_eq_some_iff.1 hj
  obtain ⟨rfl, rfl⟩ := Prod.mk.inj heq
  have hanswer : (m.answers s served)[j]? = some reply := by
    have hlt : j < (read.map Prod.snd).length := by
      rw [List.length_map]
      exact (List.getElem?_eq_some_iff.1 hread).1
    rw [h.answers_eq, List.getElem?_append_left hlt, List.getElem?_map, hread]
    rfl
  obtain ⟨other, o, hother, ho, rfl⟩ := List.getElem?_zipWith_eq_some.1 hanswer
  refine ⟨other, o, ?_, ?_, call'.outcome_replyOf other key o⟩
  · rw [h.calls_eq, List.getElem?_append_left (List.getElem?_eq_some_iff.1 hother).1, hother]
  · rw [outcome?, h.calls_eq, List.map_append, Module.outcomes_append,
      List.getElem?_append_left (List.getElem?_eq_some_iff.1 ho).1, ho]

/-- The caller of an answered call has read the oldest reply that no earlier caller had read. It is
the reply to its own call exactly when nobody had given up. -/
theorem answer_cases (steps : Steps m.program key (start s) x)
    (distinct : (x.calls.map Call.trace).Nodup)
    (hi : x.ended[i]? = some ⟨call, some outcome⟩) :
    (∀ e ∈ x.ended.take i, e.outcome ≠ none) ∧
        (∃ o, x.outcome? m s i = some o ∧ outcome = key.received o) ∨
      (∃ e ∈ x.ended.take i, e.outcome = none) ∧
        ∃ trace,
          outcome = .error (.plugin (.protocol (.traceMismatch key.text call.trace trace))) := by
  obtain ⟨served, unserved, read, unread, h⟩ := exists_holds steps
  obtain ⟨other, o, hother, ho, heq⟩ := h.exists_answer (answered_getElem? hi)
  by_cases hbefore : ∀ e ∈ x.ended.take i, e.outcome ≠ none
  · rw [(answeredBefore_eq_iff hi).2 hbefore] at hother ho
    obtain rfl := Option.some.inj (hother.symm.trans (calls_getElem? hi))
    exact .inl ⟨hbefore, o, ho, heq.trans (if_pos rfl)⟩
  -- Somebody has given up, so that the reply is for an earlier call, whose trace is another.
  · have hne : x.answeredBefore i ≠ i := hbefore ∘ (answeredBefore_eq_iff hi).1
    have htrace : other.trace ≠ call.trace := by
      intro htrace
      have hlt : x.answeredBefore i < (x.calls.map Call.trace).length := by
        rw [List.length_map]
        exact (List.getElem?_eq_some_iff.1 hother).1
      refine hne ((List.getElem?_inj hlt distinct).1 ?_)
      rw [List.getElem?_map, List.getElem?_map, hother, calls_getElem? hi, Option.map_some,
        Option.map_some, htrace]
    refine .inr ⟨?_, other.trace, heq.trans (if_neg htrace)⟩
    by_contra hnone
    apply hbefore
    intro e he habsent
    exact hnone ⟨e, he, habsent⟩

end Answers

section Progress

variable {m : Module σ} {key : ModuleKey} {s : σ} {x : Link σ}

theorem Holds.unread_ne_nil {served : List Call} {read : List (Call × Reply)} {unread : List Reply}
    (h : Holds m key s x served [] read unread) {call : Call} (waits : x.waiting = some call) :
    unread ≠ [] := by
  rintro rfl
  have hcalls : x.calls.length = x.ended.length + 1 := by simp [calls, waits]
  have hread : read.length ≤ x.ended.length := by
    have hanswered := congrArg List.length h.answered_eq
    rw [List.length_map] at hanswered
    exact hanswered ▸ List.length_filterMap_le _ _
  have hanswers : (m.answers s served).length = served.length := by
    simp [Module.answers, Module.length_outcomes]
  have hserved := congrArg List.length h.calls_eq
  rw [h.answers_eq] at hanswers
  simp at hanswers hserved
  omega

theorem replies_ne_nil (steps : Steps m.program key (start s) x) {call : Call}
    (waits : x.waiting = some call) (empty : x.requests = []) : x.replies ≠ [] := by
  obtain ⟨served, unserved, read, unread, h⟩ := exists_holds steps
  obtain rfl := List.map_eq_nil_iff.1 (h.requests_eq.symm.trans empty)
  rw [h.replies_eq, Ne, List.map_eq_nil_iff]
  exact h.unread_ne_nil waits

theorem exists_answered (steps : Steps m.program key (start s) x) {call : Call}
    (waits : x.waiting = some call) :
    ∃ y outcome, Steps m.program key x y ∧ y.ended = x.ended ++ [⟨call, some outcome⟩] := by
  obtain ⟨served, unserved, read, unread, h⟩ := exists_holds steps
  -- The module reads the lines that it has not read yet, and then the host reads one.
  induction unserved generalizing x served unread with
  | nil =>
      obtain ⟨reply, more, rfl⟩ := List.exists_cons_of_ne_nil (h.unread_ne_nil waits)
      exact ⟨_, _, .single (.receive waits h.replies_eq), rfl⟩
  | cons next more ih =>
      have hserve : Step m.program key x _ :=
        .serve h.requests_eq (m.program_line x.state next)
      obtain ⟨y, outcome, hy, hended⟩ := ih (steps.tail hserve) waits _ _ h.serve
      exact ⟨y, outcome, .head hserve hy, hended⟩

end Progress

/-- Whenever host and module take their turns, and whoever gives up: a caller gets what the module
makes of its own request, or an error; and it gets exactly that as long as nobody has given up. -/
theorem safe_of_distinct (m : Module σ) (key : ModuleKey) (s : σ) {x : Link σ}
    (steps : Steps m.program key (start s) x) (distinct : (x.calls.map Call.trace).Nodup) :
    x.Safe m key s where
  of_ok i call response hi := by
    rcases answer_cases steps distinct hi with ⟨-, o, ho, heq⟩ | ⟨-, trace, heq⟩
    · cases o with
      | ok r =>
          obtain rfl : response = r := Except.ok.inj heq
          exact ho
      | error failure => exact nomatch heq
    · exact nomatch heq
  of_remote i call text message hi := by
    rcases answer_cases steps distinct hi with ⟨-, o, ho, heq⟩ | ⟨-, trace, heq⟩
    · cases o with
      | ok => exact nomatch heq
      | error failure =>
          rw [ModuleKey.received] at heq
          obtain ⟨rfl, rfl⟩ := PluginError.remote.inj (CallFault.plugin.inj (Except.error.inj heq))
          exact ⟨rfl, failure, ho, rfl⟩
    · exact nomatch heq
  undisturbed i call outcome hi nobody := by
    rcases answer_cases steps distinct hi with ⟨-, h⟩ | ⟨⟨e, he, hnone⟩, -⟩
    · exact h
    · exact absurd hnone (nobody e he)
  refused i call outcome hi somebody := by
    obtain ⟨e, he, hnone⟩ := somebody
    rcases answer_cases steps distinct hi with ⟨hbefore, -⟩ | ⟨-, h⟩
    · exact absurd hnone (hbefore e he)
    · exact h
  not_stuck _ waits empty := replies_ne_nil steps waits empty
  returns _ waits := exists_answered steps waits

section Calls

variable {m : Module σ} {key : ModuleKey} {x : Link σ}

def called (m : Module σ) (x : Link σ) (call : Call) : Link σ where
  requests := []
  state := (m x.state call.request).2
  replies := x.replies ++ [(call.replyOf (m x.state call.request).1).line]
  waiting := some call
  ended := x.ended

def givenUp (m : Module σ) (x : Link σ) (call : Call) : Link σ :=
  { x.called m call with waiting := none, ended := x.ended ++ [⟨call, none⟩] }

def answeredWith (m : Module σ) (key : ModuleKey) (x : Link σ) (call : Call) (line : String)
    (rest : List String) : Link σ :=
  { x.called m call with
    replies := rest
    waiting := none
    ended := x.ended ++ [⟨call, some (call.outcome key line)⟩] }

theorem steps_called (idle : x.waiting = none) (empty : x.requests = []) (call : Call) :
    Steps m.program key x (x.called m call) := by
  have hsent : x.requests ++ [call.line] = [call.line] := by rw [empty]; rfl
  have hserve : Step m.program key
      { x with requests := x.requests ++ [call.line], waiting := some call } (x.called m call) :=
    .serve hsent (m.program_line x.state call)
  exact (Relation.ReflTransGen.single (.send idle call)).tail hserve

theorem steps_givenUp (idle : x.waiting = none) (empty : x.requests = []) (call : Call) :
    Steps m.program key x (x.givenUp m call) :=
  (steps_called idle empty call).tail (.giveUp rfl)

theorem steps_answeredWith (idle : x.waiting = none) (empty : x.requests = []) (call : Call)
    {line : String} {rest : List String} (h : (x.called m call).replies = line :: rest) :
    Steps m.program key x (x.answeredWith m key call line rest) :=
  (steps_called idle empty call).tail (.receive rfl h)

end Calls

def echo : Module Unit := fun s request => (.ok ⟨[Bytes.ofText request.app], none⟩, s)

def echoCall (trace : String) : Call := ⟨trace, "echo", .ofNames "shop" "dev" "web"⟩

/-- After somebody has given up, the next caller reads what was written for the former. -/
theorem safe_of_giving_up :
    ∃ x : Link Unit, Steps echo.program ⟨"a@1"⟩ (start ()) x ∧
      (x.calls.map Call.trace).Nodup ∧
      x.ended = [⟨echoCall "t-1", some (.ok ⟨[Bytes.ofText "web"], none⟩)⟩, ⟨echoCall "t-2", none⟩,
        ⟨echoCall "t-3",
          some (.error (.plugin (.protocol (.traceMismatch "a@1" "t-3" "t-2"))))⟩] ∧
      x.Safe echo ⟨"a@1"⟩ () := by
  have hfirst : Steps echo.program ⟨"a@1"⟩ (start ()) _ :=
    steps_answeredWith rfl rfl (echoCall "t-1") rfl
  have hsecond := hfirst.trans (steps_givenUp rfl rfl (echoCall "t-2"))
  have hthird := hsecond.trans (steps_answeredWith rfl rfl (echoCall "t-3") rfl)
  have distinct : (["t-1", "t-2", "t-3"] : List String).Nodup := by decide
  refine ⟨_, hthird, distinct, ?_, safe_of_distinct echo ⟨"a@1"⟩ () hthird distinct⟩
  simp only [answeredWith, givenUp, called, start, Call.outcome_replyOf, List.nil_append,
    List.cons_append]
  rfl

section Connections

variable {m : Module σ} {key : ModuleKey} {x : Link σ}

def connection (x : Link σ) : Connection σ := ⟨some x.state, x.replies⟩

variable (m key x) in
theorem react_connection (call : Call) :
    ∃ line rest, (x.called m call).replies = line :: rest ∧
      Connection.react m.program key x.connection call =
        ⟨some Connection.answerDelay, call.outcome key line,
          (x.answeredWith m key call line rest).connection, (x.givenUp m call).connection⟩ := by
  have hne : (x.called m call).replies ≠ [] := List.append_ne_nil_of_right_ne_nil _ nofun
  obtain ⟨line, rest, hreplies⟩ := List.exists_cons_of_ne_nil hne
  refine ⟨line, rest, hreplies, ?_⟩
  have hsend : Connection.send m.program x.state x.replies call.line =
      (x.called m call).connection := by
    rw [Connection.send, Module.program_line]
    rfl
  simp only [Connection.react, connection] at hsend ⊢
  simp only [hsend, hreplies, answeredWith, givenUp]

/-- A call through a pool of processes is a call on the link of its plugin, which is given up when
the budget is too small. -/
theorem exists_steps_of_call {h : ProcessHost σ} (answer_eq : h.answer = m.program)
    {rules : PoolRules (Dict (Connection σ))} (host_eq : rules.host = h.host)
    {w : World (Dict (Connection σ))} (idle : x.waiting = none) (empty : x.requests = [])
    (running : w.plugins.get? key.text = some x.connection) (request : Request) :
    ∃ y, Steps m.program key x y ∧ y.waiting = none ∧ y.requests = [] ∧
      (Pool.call rules w key request).2.plugins.get? key.text = some y.connection ∧
      (y.ended = x.ended ++
          [⟨rules.nextCall w key request, some (Pool.call rules w key request).1⟩] ∨
        y.ended = x.ended ++ [⟨rules.nextCall w key request, none⟩] ∧
          (Pool.call rules w key request).1 =
            .error (.plugin (.timeout key.text (rules.budget w.now)))) := by
  obtain ⟨line, rest, hreplies, hreact⟩ :=
    react_connection m key x (rules.nextCall w key request)
  have hhost : rules.host.react w.plugins key (rules.nextCall w key request) =
      ⟨some Connection.answerDelay, (rules.nextCall w key request).outcome key line,
        w.plugins.insert key.text
          (x.answeredWith m key (rules.nextCall w key request) line rest).connection,
        w.plugins.insert key.text (x.givenUp m (rules.nextCall w key request)).connection⟩ := by
    rw [host_eq]
    simp only [ProcessHost.host, running, Option.getD_some, answer_eq, hreact]
  have hcall : ⟨rules.trace w.calls, key.moduleName, request⟩ = rules.nextCall w key request := rfl
  by_cases hbudget : Connection.answerDelay ≤ rules.budget w.now
  · have hin : (some Connection.answerDelay).filter (· ≤ rules.budget w.now) =
        some Connection.answerDelay := by simp [Option.filter, hbudget]
    simp only [Pool.call, hcall, hhost, hin]
    exact ⟨_, steps_answeredWith idle empty _ hreplies, rfl, rfl, Dict.get?_insert_self .., .inl rfl⟩
  · have hout : (some Connection.answerDelay).filter (· ≤ rules.budget w.now) = none := by
      simp [Option.filter, hbudget]
    simp only [Pool.call, hcall, hhost, hout]
    exact ⟨_, steps_givenUp idle empty _, rfl, rfl, Dict.get?_insert_self .., .inr ⟨rfl, trivial⟩⟩

end Connections

end Link

end ResourceGraph
