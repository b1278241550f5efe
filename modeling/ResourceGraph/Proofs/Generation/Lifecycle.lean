import ResourceGraph.Generation
import ResourceGraph.Proofs.Dict
import ResourceGraph.Proofs.Plugin.Wire

/-!
The life of the plugins of one generation. Modules are visited in key order until a visit fails, and
then every plugin that was launched is killed once.
-/

namespace ResourceGraph

variable {σ : Type}

inductive Ending where
  | unwritable (error : GenerationError)
  | notStarted (error : PluginError)
  | failed (call : Call) (fault : CallFault)
  | rejected (call : Call) (response : Response) (error : GenerationError)
  | accepted (call : Call) (response : Response)

structure Visit where
  key : ModuleKey
  ending : Ending

def Ending.error? : Ending → Option GenerationError
  | .unwritable e => some e
  | .notStarted e => some (.invocation e)
  | .failed _ fault => some fault.error
  | .rejected _ _ e => some e
  | .accepted _ _ => none

def Ending.events (workDir : String) (key : ModuleKey) : Ending → List Event
  | .unwritable _ => []
  | .notStarted _ => [.launched key workDir false]
  | .failed call _ | .rejected call _ _ | .accepted call _ =>
      [.launched key workDir true, .called key call]

namespace Visit

def error? (v : Visit) : Option GenerationError := v.ending.error?

def events (workDir : String) (v : Visit) : List Event := v.ending.events workDir v.key

end Visit

namespace Event

def attempted? : Event → Option ModuleKey
  | .launched key _ _ => some key
  | _ => none

def started? : Event → Option ModuleKey
  | .launched key _ true => some key
  | _ => none

def called? : Event → Option ModuleKey
  | .called key _ => some key
  | _ => none

def killed? : Event → Option ModuleKey
  | .killed key => some key
  | _ => none

end Event

def startedKeys (events : List Event) : List ModuleKey := events.filterMap Event.started?

def Visit.journal (workDir : String) (visits : List Visit) : List Event :=
  visits.flatMap (Visit.events workDir)

def World.afterLaunch (w : World σ) (key : ModuleKey) (workDir : String) (started : Bool)
    (plugins : σ) : World σ :=
  { w with plugins, journal := w.journal ++ [.launched key workDir started] }

def PoolRules.nextCall (rules : PoolRules σ) (w : World σ) (key : ModuleKey) (request : Request) :
    Call :=
  ⟨rules.trace w.calls, key.moduleName, request⟩

/-- The visit of one module, whose plugin has not been launched before. -/
inductive Visited (rules : PoolRules σ) (base : RequestBase) (workloadKey : Option ModuleKey)
    (key : ModuleKey) (briefing : Briefing) (a : ModuleResults) (w : World σ) :
    Ending → ModuleResults → World σ → Prop
  | unwritable {e : GenerationError} (request_eq : base.request briefing = .error e) :
      Visited rules base workloadKey key briefing a w (.unwritable e) a w
  | notStarted {request : Request} {e : PluginError} {plugins : σ}
      (request_eq : base.request briefing = .ok request)
      (launch_eq : rules.host.launch w.plugins key rules.workDir = (.error e, plugins)) :
      Visited rules base workloadKey key briefing a w (.notStarted e) a
        (w.afterLaunch key rules.workDir false plugins)
  | failed {request : Request} {fault : CallFault} {plugins : σ} {called : World σ}
      (request_eq : base.request briefing = .ok request)
      (launch_eq : rules.host.launch w.plugins key rules.workDir = (.ok (), plugins))
      (call_eq : Pool.call rules (w.afterLaunch key rules.workDir true plugins) key request =
        (.error fault, called)) :
      Visited rules base workloadKey key briefing a w
        (.failed (rules.nextCall (w.afterLaunch key rules.workDir true plugins) key request) fault)
        a called
  | rejected {request : Request} {response : Response} {e : GenerationError} {plugins : σ}
      {called : World σ}
      (request_eq : base.request briefing = .ok request)
      (launch_eq : rules.host.launch w.plugins key rules.workDir = (.ok (), plugins))
      (call_eq : Pool.call rules (w.afterLaunch key rules.workDir true plugins) key request =
        (.ok response, called))
      (refused : response.Refused key e) :
      Visited rules base workloadKey key briefing a w
        (.rejected (rules.nextCall (w.afterLaunch key rules.workDir true plugins) key request)
          response e)
        a called
  | accepted {request : Request} {response : Response} {resources : List Resource}
      {patcher : Option Patcher} {plugins : σ} {called : World σ}
      (request_eq : base.request briefing = .ok request)
      (launch_eq : rules.host.launch w.plugins key rules.workDir = (.ok (), plugins))
      (call_eq : Pool.call rules (w.afterLaunch key rules.workDir true plugins) key request =
        (.ok response, called))
      (carries : response.Carries key resources patcher) :
      Visited rules base workloadKey key briefing a w
        (.accepted (rules.nextCall (w.afterLaunch key rules.workDir true plugins) key request)
          response)
        (a.collect (workloadKey == some key) briefing.healthPolicy resources patcher) called

/-- Visits of modules in turn, up to the first that fails. -/
inductive Visits (rules : PoolRules σ) (base : RequestBase) (workloadKey : Option ModuleKey) :
    Briefings → ModuleResults → World σ → List Visit → ModuleResults → World σ → Prop
  | done {a : ModuleResults} {w : World σ} : Visits rules base workloadKey [] a w [] a w
  | stopped {text : String} {briefing : Briefing} {rest : Briefings} {a : ModuleResults}
      {w w' : World σ} {ending : Ending}
      (visited : Visited rules base workloadKey ⟨text⟩ briefing a w ending a w')
      (fails : ending.error?.isSome) :
      Visits rules base workloadKey ((text, briefing) :: rest) a w [⟨⟨text⟩, ending⟩] a w'
  | next {text : String} {briefing : Briefing} {rest : Briefings} {a a' a'' : ModuleResults}
      {w w' w'' : World σ} {ending : Ending} {visits : List Visit}
      (visited : Visited rules base workloadKey ⟨text⟩ briefing a w ending a' w')
      (succeeds : ending.error? = none)
      (more : Visits rules base workloadKey rest a' w' visits a'' w'') :
      Visits rules base workloadKey ((text, briefing) :: rest) a w (⟨⟨text⟩, ending⟩ :: visits)
        a'' w''

/-- What killing plugins in turn comes to. -/
def Host.killOutcomes (host : Host σ) : List ModuleKey → σ → List (Except PluginError Unit)
  | [], _ => []
  | key :: rest, s => (host.kill s key).1 :: host.killOutcomes rest (host.kill s key).2

/-- The results of visits, unless one of them failed. -/
def Visit.outcome (visits : List Visit) (results : ModuleResults) :
    Except GenerationError ModuleResults :=
  match visits.findSome? Visit.error? with
  | some e => .error e
  | none => .ok results

def failuresOf (outcomes : List (Except PluginError Unit)) : List PluginError :=
  outcomes.filterMap fun
    | .ok _ => none
    | .error e => some e

/-- The life of the plugins of a plan: the visits of its modules, what these left in the journal,
what killing the launched plugins came to, and the outcome of it all. -/
structure Lifecycle (rules : PoolRules σ) (base : RequestBase) (plan : Plan) (world : World σ)
    (visits : List Visit) (journal : List Event) (kills : List (Except PluginError Unit))
    (outcome : Except GenerationError ModuleResults) (final : World σ) : Prop where
  visited : ∃ results reached,
    Visits rules base plan.workloadKey plan.briefings .empty world visits results reached ∧
      kills = rules.host.killOutcomes (startedKeys journal) reached.plugins ∧
      ∀ a, outcome = .ok a → a = results
  journal_eq : journal = Visit.journal rules.workDir visits
  /-- Launches are attempted for the first keys, in their order and once each. -/
  attempts_isPrefix :
    journal.filterMap Event.attempted? <+: (Dict.keys plan.briefings).map ModuleKey.mk
  attempts_nodup : (journal.filterMap Event.attempted?).Nodup
  started_sublist : (startedKeys journal).Sublist (journal.filterMap Event.attempted?)
  /-- Every plugin that is launched is called once. -/
  calls_eq : journal.filterMap Event.called? = startedKeys journal
  no_kills : journal.filterMap Event.killed? = []
  /-- No visit follows one that fails. -/
  stops : ∀ v ∈ visits.dropLast, v.error? = none
  /-- Without a failure all modules are visited. -/
  visits_all : (∀ v ∈ visits, v.error? = none) →
    visits.map Visit.key = (Dict.keys plan.briefings).map ModuleKey.mk
  /-- After the visits the launched plugins are killed, once each and in key order. -/
  final_journal_eq :
    final.journal = world.journal ++ journal ++ (startedKeys journal).map Event.killed
  isOk_iff : (∃ a, outcome = .ok a) ↔
    (∀ v ∈ visits, v.error? = none) ∧ ∀ k ∈ kills, k = .ok ()
  /-- A failure to kill keeps the first error, if there is one. -/
  teardown : failuresOf kills ≠ [] →
    outcome = .error (.teardown (visits.findSome? Visit.error?) (failuresOf kills))
  primary : failuresOf kills = [] →
    ∀ e, visits.findSome? Visit.error? = some e → outcome = .error e

section Visits

variable {rules : PoolRules σ} {base : RequestBase} {workloadKey : Option ModuleKey}

theorem Pool.journal_of_call {w called : World σ} {key : ModuleKey} {request : Request}
    {outcome : Except CallFault Response}
    (h : Pool.call rules w key request = (outcome, called)) :
    called.journal = w.journal ++ [.called key (rules.nextCall w key request)] := by
  unfold Pool.call at h
  simp only at h
  split at h <;> (obtain ⟨-, rfl⟩ := Prod.mk.inj h; rfl)

theorem Pool.ensure_of_fresh {pool : Pool σ} {key : ModuleKey} (fresh : pool.contains key = false) :
    pool.ensure rules key =
      match rules.host.launch pool.world.plugins key rules.workDir with
      | (.error e, plugins) =>
          (.error e, ⟨pool.handles, pool.world.afterLaunch key rules.workDir false plugins⟩)
      | (.ok _, plugins) =>
          (.ok (), ⟨Dict.insert pool.handles key.text (),
            pool.world.afterLaunch key rules.workDir true plugins⟩) := by
  unfold Pool.ensure
  rw [fresh]
  rcases rules.host.launch pool.world.plugins key rules.workDir with ⟨_ | _, plugins⟩ <;> rfl

theorem Visited.journal_eq {key : ModuleKey} {briefing : Briefing} {a a' : ModuleResults}
    {w w' : World σ} {ending : Ending}
    (h : Visited rules base workloadKey key briefing a w ending a' w') :
    w'.journal = w.journal ++ ending.events rules.workDir key := by
  cases h with
  | unwritable _ => simp [Ending.events]
  | notStarted _ _ => rfl
  | failed _ _ call_eq | rejected _ _ call_eq _ | accepted _ _ call_eq _ =>
      rw [Pool.journal_of_call call_eq]
      simp [World.afterLaunch, Ending.events]

theorem Visited.eq_of_error {key : ModuleKey} {briefing : Briefing} {a a' : ModuleResults}
    {w w' : World σ} {ending : Ending}
    (h : Visited rules base workloadKey key briefing a w ending a' w')
    (fails : ending.error?.isSome) : a' = a := by
  cases h with
  | accepted _ _ _ _ => simp [Ending.error?] at fails
  | unwritable _ | notStarted _ _ | failed _ _ _ | rejected _ _ _ _ => rfl

variable (rules base workloadKey) in
theorem Generation.exists_visited (text : String) (briefing : Briefing) (rest : Briefings)
    (a : ModuleResults) {pool : Pool σ} (fresh : pool.contains ⟨text⟩ = false) :
    ∃ ending a' w', Visited rules base workloadKey ⟨text⟩ briefing a pool.world ending a' w' ∧
      askModules rules base workloadKey ((text, briefing) :: rest) a pool =
        match ending.error? with
        | some e => (.error e,
            ⟨if startedKeys (ending.events rules.workDir ⟨text⟩) = [] then pool.handles
              else Dict.insert pool.handles text (), w'⟩)
        | none => askModules rules base workloadKey rest a'
            ⟨Dict.insert pool.handles text (), w'⟩ := by
  rw [askModules]
  cases request_eq : base.request briefing with
  | error e => exact ⟨_, _, _, .unwritable request_eq, rfl⟩
  | ok request =>
      simp only [Pool.ask, Pool.ensure_of_fresh fresh]
      rcases launch_eq : rules.host.launch pool.world.plugins ⟨text⟩ rules.workDir with
        ⟨e | ⟨⟩, plugins⟩
      · exact ⟨_, _, _, .notStarted request_eq launch_eq, rfl⟩
      · simp only
        rcases call_eq : Pool.call rules
          (pool.world.afterLaunch ⟨text⟩ rules.workDir true plugins) ⟨text⟩ request with
          ⟨fault | response, called⟩
        · exact ⟨_, _, _, .failed request_eq launch_eq call_eq, rfl⟩
        · cases add_eq : a.add ⟨text⟩ workloadKey briefing response with
          | error e =>
              have refused := ModuleResults.add_eq_error_iff.mp add_eq
              refine ⟨_, _, _, .rejected request_eq launch_eq call_eq refused, ?_⟩
              simp [add_eq, Ending.error?, Ending.events, startedKeys, Event.started?]
          | ok a' =>
              obtain ⟨resources, patcher, carries, rfl⟩ := ModuleResults.add_eq_ok_iff.mp add_eq
              refine ⟨_, _, _, .accepted request_eq launch_eq call_eq carries, ?_⟩
              simp [add_eq, Ending.error?]

theorem Generation.askModules_of_carries {text : String} {briefing : Briefing} {rest : Briefings}
    {a : ModuleResults} {pool pool' : Pool σ} {request : Request} {response : Response}
    {resources : List Resource} {patcher : Option Patcher}
    (request_eq : base.request briefing = .ok request)
    (ask_eq : pool.ask rules ⟨text⟩ request = (.ok response, pool'))
    (carries : response.Carries ⟨text⟩ resources patcher) :
    askModules rules base workloadKey ((text, briefing) :: rest) a pool =
      askModules rules base workloadKey rest
        (a.collect (workloadKey == some ⟨text⟩) briefing.healthPolicy resources patcher) pool' := by
  rw [askModules, request_eq]
  simp only [ask_eq, ModuleResults.add_of_carries carries]

theorem Visit.journal_cons (workDir : String) (v : Visit) (visits : List Visit) :
    Visit.journal workDir (v :: visits) = v.events workDir ++ Visit.journal workDir visits :=
  List.flatMap_cons

theorem Visits.journal_eq {briefings : Briefings} {a a' : ModuleResults} {w w' : World σ}
    {visits : List Visit} (h : Visits rules base workloadKey briefings a w visits a' w') :
    w'.journal = w.journal ++ Visit.journal rules.workDir visits := by
  induction h with
  | done => simp [Visit.journal]
  | stopped visited _ => simpa [Visit.journal, Visit.events] using visited.journal_eq
  | next visited _ _ ih =>
      rw [ih, visited.journal_eq, Visit.journal_cons, List.append_assoc]
      rfl

theorem Ending.attempts_isPrefix (workDir : String) (key : ModuleKey) (ending : Ending) :
    (ending.events workDir key).filterMap Event.attempted? <+: [key] := by
  cases ending <;> simp [Ending.events, Event.attempted?]

theorem Ending.attempts_of_success (workDir : String) (key : ModuleKey) {ending : Ending}
    (h : ending.error? = none) :
    (ending.events workDir key).filterMap Event.attempted? = [key] := by
  cases ending <;> simp_all [Ending.error?, Ending.events, Event.attempted?]

theorem startedKeys_events (workDir : String) (key : ModuleKey) (ending : Ending) :
    startedKeys (ending.events workDir key) = [] ∨
      startedKeys (ending.events workDir key) = [key] := by
  cases ending <;> simp [Ending.events, startedKeys, Event.started?]

theorem startedKeys_of_success (workDir : String) (key : ModuleKey) {ending : Ending}
    (h : ending.error? = none) : startedKeys (ending.events workDir key) = [key] := by
  cases ending <;> simp_all [Ending.error?, Ending.events, startedKeys, Event.started?]

theorem Visits.attempts_isPrefix {briefings : Briefings} {a a' : ModuleResults} {w w' : World σ}
    {visits : List Visit} (h : Visits rules base workloadKey briefings a w visits a' w') :
    (Visit.journal rules.workDir visits).filterMap Event.attempted? <+:
      (Dict.keys briefings).map ModuleKey.mk := by
  induction h with
  | done => simp [Visit.journal]
  | @stopped text briefing rest a w w' ending visited _ =>
      simp only [Visit.journal, List.flatMap_singleton]
      exact (Ending.attempts_isPrefix _ _ ending).trans
        (List.cons_prefix_cons.mpr ⟨rfl, List.nil_prefix⟩)
  | @next text briefing rest a a' a'' w w' w'' ending visits visited succeeds more ih =>
      rw [Visit.journal_cons, List.filterMap_append, Visit.events,
        Ending.attempts_of_success _ _ succeeds]
      exact List.cons_prefix_cons.mpr ⟨rfl, ih⟩

section Journal

variable (workDir : String) (visits : List Visit)

theorem Visit.calls_eq :
    (Visit.journal workDir visits).filterMap Event.called? =
      startedKeys (Visit.journal workDir visits) := by
  induction visits with
  | nil => rfl
  | cons v rest ih =>
      rw [Visit.journal_cons, startedKeys, List.filterMap_append, List.filterMap_append, ih]
      congr 1
      unfold Visit.events
      cases v.ending <;> rfl

theorem Visit.no_kills : (Visit.journal workDir visits).filterMap Event.killed? = [] := by
  rw [List.filterMap_eq_nil_iff]
  intro e he
  obtain ⟨v, -, hv⟩ := List.mem_flatMap.mp he
  unfold Visit.events at hv
  cases hend : v.ending <;> simp [hend, Ending.events] at hv
  · rw [hv]
    rfl
  all_goals rcases hv with rfl | rfl <;> rfl

theorem Visit.started_sublist :
    (startedKeys (Visit.journal workDir visits)).Sublist
      ((Visit.journal workDir visits).filterMap Event.attempted?) := by
  induction visits with
  | nil => exact List.Sublist.refl _
  | cons v rest ih =>
      rw [Visit.journal_cons, startedKeys, List.filterMap_append, List.filterMap_append]
      refine List.Sublist.append ?_ ih
      unfold Visit.events
      cases v.ending with
      | unwritable _ | failed _ _ | rejected _ _ _ | accepted _ _ => exact List.Sublist.refl _
      | notStarted _ => exact List.nil_sublist _

end Journal

theorem Visits.error?_of_mem_dropLast {briefings : Briefings} {a a' : ModuleResults}
    {w w' : World σ} {visits : List Visit}
    (h : Visits rules base workloadKey briefings a w visits a' w') :
    ∀ v ∈ visits.dropLast, v.error? = none := by
  induction h with
  | done => simp
  | stopped _ _ => simp
  | @next text briefing rest a a' a'' w w' w'' ending visits visited succeeds more ih =>
      intro v hv
      cases visits with
      | nil => simp at hv
      | cons u us =>
          rw [List.dropLast_cons_cons] at hv
          rcases List.mem_cons.mp hv with rfl | hv
          · exact succeeds
          · exact ih v hv

theorem Visits.map_key_of_success {briefings : Briefings} {a a' : ModuleResults} {w w' : World σ}
    {visits : List Visit} (h : Visits rules base workloadKey briefings a w visits a' w')
    (succeed : ∀ v ∈ visits, v.error? = none) :
    visits.map Visit.key = (Dict.keys briefings).map ModuleKey.mk := by
  induction h with
  | done => rfl
  | stopped _ fails =>
      have hnone := succeed _ List.mem_cons_self
      simp only [Visit.error?] at hnone
      rw [hnone] at fails
      exact absurd fails (by simp)
  | next _ _ _ ih =>
      have hrest := ih fun v hv => succeed v (List.mem_cons_of_mem _ hv)
      simp only [Dict.keys, List.map_cons] at hrest ⊢
      rw [hrest]

variable (rules base workloadKey) in
/-- Asking modules whose plugins have not been launched is a series of visits, and the plugins that
they launch become handles in the order of the keys. -/
theorem Generation.exists_visits (briefings : Briefings) (a : ModuleResults) (pool : Pool σ)
    (sorted : briefings.Sorted)
    (fresh : ∀ k ∈ Dict.keys pool.handles, ∀ k' ∈ Dict.keys briefings, k < k') :
    ∃ visits results reached,
      Visits rules base workloadKey briefings a pool.world visits results reached ∧
        askModules rules base workloadKey briefings a pool =
          (Visit.outcome visits results, ⟨pool.handles ++
            (startedKeys (Visit.journal rules.workDir visits)).map fun k => (k.text, ()),
            reached⟩) := by
  -- The keys rise, so that every visit launches a plugin and its handle comes last.
  induction briefings generalizing a pool with
  | nil => 
      exact ⟨[], a, pool.world, .done,
        by simp [askModules, Visit.journal, Visit.outcome, startedKeys]⟩
  | cons e rest ih =>
      obtain ⟨text, briefing⟩ := e
      have hlt : ∀ k ∈ Dict.keys pool.handles, k < text :=
        fun k hk => fresh k hk text (by simp [Dict.keys])
      have hins := Dict.insert_of_forall_lt () hlt
      obtain ⟨ending, a', w', visited, hask⟩ :=
        Generation.exists_visited rules base workloadKey text briefing rest a
          (Dict.contains_eq_false_of_forall_lt hlt)
      cases herr : ending.error? with
      | some err =>
          have hfails : ending.error?.isSome := by simp [herr]
          obtain rfl := visited.eq_of_error hfails
          refine ⟨[⟨⟨text⟩, ending⟩], a', w', .stopped visited hfails, ?_⟩
          rw [hask, herr, hins]
          simp only [Visit.outcome, List.findSome?_singleton, Visit.error?, herr, Visit.journal,
            List.flatMap_singleton, Visit.events, Prod.mk.injEq, true_and]
          rcases startedKeys_events rules.workDir ⟨text⟩ ending with hs | hs <;> simp [hs]
      | none =>
          have hfresh : ∀ k ∈ Dict.keys (Dict.insert pool.handles text ()),
              ∀ k' ∈ Dict.keys rest, k < k' := by
            intro k hk k' hk'
            rw [hins] at hk
            simp only [Dict.keys, List.map_append, List.mem_append] at hk
            rcases hk with hk | hk
            · exact fresh k hk k' (List.mem_cons_of_mem _ hk')
            · obtain rfl : k = text := by simpa using hk
              exact sorted.cons_lt k' hk'
          obtain ⟨visits, results, reached, more, heq⟩ :=
            ih a' ⟨Dict.insert pool.handles text (), w'⟩ sorted.tail hfresh
          refine ⟨⟨⟨text⟩, ending⟩ :: visits, results, reached, .next visited herr more, ?_⟩
          have hkeys : startedKeys (Visit.journal rules.workDir (⟨⟨text⟩, ending⟩ :: visits)) =
              ⟨text⟩ :: startedKeys (Visit.journal rules.workDir visits) := by
            rw [Visit.journal_cons, startedKeys, List.filterMap_append, Visit.events,
              ← startedKeys, startedKeys_of_success _ _ herr]
            rfl
          rw [hask, herr, heq, hins, hkeys]
          simp [Visit.outcome, Visit.error?, herr]

variable (rules) in
theorem Pool.exists_close_eq (keys : List ModuleKey) (w : World σ) :
    ∃ final, Pool.close rules ⟨keys.map fun k => (k.text, ()), w⟩ =
        (failuresOf (rules.host.killOutcomes keys w.plugins), final) ∧
      final.journal = w.journal ++ keys.map Event.killed := by
  induction keys generalizing w with
  | nil => exact ⟨w, rfl, by simp⟩
  | cons key rest ih =>
      obtain ⟨final, hclose, hjournal⟩ :=
        ih { w with
          plugins := (rules.host.kill w.plugins key).2, journal := w.journal ++ [.killed key] }
      refine ⟨final, ?_, by simpa using hjournal⟩
      simp only [close, Dict.keys, List.map_cons, killAll] at hclose ⊢
      rw [hclose, Host.killOutcomes]
      cases (rules.host.kill w.plugins key).1 <;> rfl

theorem failuresOf_eq_nil_iff {outcomes : List (Except PluginError Unit)} :
    failuresOf outcomes = [] ↔ ∀ k ∈ outcomes, k = .ok () := by
  simp only [failuresOf, List.filterMap_eq_nil_iff]
  constructor
  · intro h k hk
    cases k with
    | ok u => rfl
    | error e => exact absurd (h _ hk) (by simp)
  · intro h k hk
    rw [h k hk]

theorem Generation.withTeardown_eq {α : Type} (outcome : Except GenerationError α)
    {failures : List PluginError} (h : failures ≠ []) :
    Generation.withTeardown outcome failures =
      .error (.teardown (match outcome with | .ok _ => none | .error e => some e) failures) := by
  cases failures with
  | nil => exact absurd rfl h
  | cons f rest => cases outcome <;> rfl

theorem Generation.withTeardown_isOk_iff {α : Type} {outcome : Except GenerationError α}
    {failures : List PluginError} :
    (∃ a, Generation.withTeardown outcome failures = .ok a) ↔
      (∃ a, outcome = .ok a) ∧ failures = [] := by
  cases failures with
  | nil => simp [Generation.withTeardown]
  | cons f rest => simp [Generation.withTeardown_eq]

theorem Generation.eq_of_withTeardown_eq_ok {visits : List Visit} {results a : ModuleResults}
    {failures : List PluginError}
    (h : Generation.withTeardown (Visit.outcome visits results) failures = .ok a) :
    a = results := by
  obtain ⟨⟨b, hb⟩, rfl⟩ := Generation.withTeardown_isOk_iff.mp ⟨a, h⟩
  rw [Generation.withTeardown, Visit.outcome] at h
  cases hfind : visits.findSome? Visit.error? with
  | some e => simp [hfind] at h
  | none =>
      rw [hfind] at h
      exact (Except.ok.inj h).symm

theorem Visit.outcome_isOk_iff {visits : List Visit} {results : ModuleResults} :
    (∃ a, Visit.outcome visits results = .ok a) ↔ ∀ v ∈ visits, v.error? = none := by
  rw [← List.findSome?_eq_none_iff, Visit.outcome]
  cases visits.findSome? Visit.error? <;> simp

variable (rules base) in
theorem Generation.collect_lifecycle (plan : Plan) (world : World σ)
    (sorted : plan.briefings.Sorted) :
    ∃ visits journal kills, Lifecycle rules base plan world visits journal kills
      (collect rules base plan world).1 (collect rules base plan world).2 := by
  obtain ⟨visits, results, reached, visited, hask⟩ :=
    Generation.exists_visits rules base plan.workloadKey plan.briefings .empty (.start world)
      sorted (by simp [Pool.start, Dict.keys])
  rw [show (Pool.start world).handles = [] from rfl, List.nil_append] at hask
  obtain ⟨final, hclose, hfinal⟩ := Pool.exists_close_eq rules
    (startedKeys (Visit.journal rules.workDir visits)) reached
  have hcollect : collect rules base plan world =
      (withTeardown (Visit.outcome visits results)
        (failuresOf (rules.host.killOutcomes
          (startedKeys (Visit.journal rules.workDir visits)) reached.plugins)), final) := by
    simp only [collect, hask, hclose]
  rw [hcollect]
  have hprefix := visited.attempts_isPrefix
  have hnodup : ((Dict.keys plan.briefings).map ModuleKey.mk).Nodup :=
    List.pairwise_map.mpr (sorted.keys_nodup.imp fun hne he => hne (ModuleKey.mk.inj he))
  refine ⟨visits, Visit.journal rules.workDir visits, _, ⟨⟨results, reached, visited, rfl, ?_⟩, rfl,
    hprefix, hprefix.sublist.nodup hnodup, Visit.started_sublist _ _, Visit.calls_eq _ _,
    Visit.no_kills _ _, visited.error?_of_mem_dropLast, visited.map_key_of_success, ?_, ?_, ?_,
    ?_⟩⟩
  · exact fun a h => eq_of_withTeardown_eq_ok h
  · rw [hfinal, visited.journal_eq]
    rfl
  · rw [withTeardown_isOk_iff, Visit.outcome_isOk_iff, failuresOf_eq_nil_iff]
  · intro h
    rw [withTeardown_eq _ h, Visit.outcome]
    cases visits.findSome? Visit.error? <;> rfl
  · intro h e he
    rw [h, Visit.outcome, he]
    rfl

end Visits

/-- A generation whose settings cannot be read or whose workload cannot be written calls no module;
any other has a lifecycle. -/
theorem Generation.callModules_lifecycle (g : Generation) (source : PluginSource σ) (plan : Plan)
    (world : World σ) (sorted : plan.briefings.Sorted) :
    match source.rules g.stack.path, g.requestBase with
    | .error e, _ =>
        g.callModules source plan world = (.error (.invocation (.settings e)), world)
    | .ok _, .error e => g.callModules source plan world = (.error e, world)
    | .ok rules, .ok base =>
        ∃ visits journal kills, Lifecycle rules base plan world visits journal kills
          (g.callModules source plan world).1 (g.callModules source plan world).2 := by
  unfold Generation.callModules
  cases source.rules g.stack.path with
  | error e => rfl
  | ok rules =>
      cases g.requestBase with
      | error e => rfl
      | ok base => exact Generation.collect_lifecycle rules base plan world sorted

def answeredResponse : Response :=
  ⟨[Bytes.ofText "id: a\ntype: Kubernetes\nattributes:\n  k: v\n"],
    some (Bytes.ofText "labels:\n  k: v\n")⟩

theorem answeredResponse_carries :
    answeredResponse.Carries ⟨"a@1"⟩ [.new "a" .kubernetes [("k", .string "v")]]
      (some ⟨some [("k", "v")], none, none, none, none, none⟩) := by
  constructor
  · exact congrArg (fun r => [r]) (ModuleResults.decodeResource_eq_ok_iff.mpr (by decide +kernel))
  · exact congrArg some (ModuleResults.decodePatcher_eq_ok_iff.mpr (by decide +kernel))

/-- The first plugin answers and cannot be killed, the second panics. -/
def panickingRules : PoolRules Unit where
  host := .ofBehaviours fun key =>
    if key.text = "a@1" then
      ⟨.ok (), some 0, .ok answeredResponse, .error (.notKilled "a@1" "busy")⟩
    else if key.text = "b@1" then
      { Behaviour.silent with outcome := .error (.panic (.message "boom")) }
    else .silent
  trace _ := "t"
  workDir := "/dev"
  timeout := 1000
  deadline := none

def panickingSource : PluginSource Unit :=
  ⟨.ok (panickingRules.host, 1000), panickingRules.trace, none, none⟩

def panickingPlan : Plan :=
  ⟨[], [], [("a@1", ⟨none, none, none⟩), ("b@1", ⟨none, none, none⟩), ("c@1", ⟨none, none, none⟩)],
    none⟩

def panickingBase : RequestBase := ⟨"shop", "dev", "web", none, none⟩

def panickingEnd : World Unit :=
  ⟨(), 0, [.launched ⟨"a@1"⟩ "/dev" true, .called ⟨"a@1"⟩ ⟨"t", "a", .ofNames "shop" "dev" "web"⟩,
    .launched ⟨"b@1"⟩ "/dev" true, .called ⟨"b@1"⟩ ⟨"t", "b", .ofNames "shop" "dev" "web"⟩,
    .killed ⟨"a@1"⟩, .killed ⟨"b@1"⟩]⟩

theorem Generation.callModules_lifecycle_of_panic :
    panickingPlan.briefings.Sorted ∧
      ∃ visits journal kills,
        Lifecycle panickingRules panickingBase panickingPlan (.start ()) visits journal kills
          (.error (.teardown (some (.panic "boom")) [.notKilled "a@1" "busy"])) panickingEnd := by
  have sorted : panickingPlan.briefings.Sorted := by
    unfold Dict.Sorted
    decide
  have hcollect : collect panickingRules panickingBase panickingPlan (.start ()) =
      (.error (.teardown (some (.panic "boom")) [.notKilled "a@1" "busy"]), panickingEnd) := by
    have hask : askModules panickingRules panickingBase none panickingPlan.briefings .empty
        (.start (.start ())) = _ :=
      askModules_of_carries rfl rfl answeredResponse_carries
    rw [collect, show panickingPlan.workloadKey = none from rfl, hask]
    rfl
  have h : ∃ visits journal kills, Lifecycle panickingRules panickingBase panickingPlan (.start ())
      visits journal kills (collect panickingRules panickingBase panickingPlan (.start ())).1
      (collect panickingRules panickingBase panickingPlan (.start ())).2 :=
    Generation.callModules_lifecycle
      ⟨⟨"shop", none, []⟩, ⟨"dev", "/dev", []⟩, ⟨"web", none, []⟩, ⟨"dev", [], none, none⟩, []⟩
      panickingSource panickingPlan (.start ()) sorted
  rw [hcollect] at h
  exact ⟨sorted, h⟩

end ResourceGraph
