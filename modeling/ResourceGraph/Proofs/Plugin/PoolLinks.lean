import ResourceGraph.Proofs.Plugin.Link
import ResourceGraph.Proofs.Plugin.Pool

namespace ResourceGraph

variable {σ : Type}

theorem World.calls_of_call {rules : PoolRules σ} {w called : World σ} {key : ModuleKey}
    {request : Request} {outcome : Except CallFault Response}
    (h : Pool.call rules w key request = (outcome, called)) : called.calls = w.calls + 1 := by
  rw [calls, calls, Pool.journal_of_call h, List.countP_append]
  rfl

theorem ModuleKey.text_ne {key key' : ModuleKey} (hne : key' ≠ key) : key'.text ≠ key.text :=
  fun htext => hne (ModuleKey.mk.injEq .. ▸ htext)

/-- A call that came to this outcome, or whose caller has given up and reports a timeout. -/
def Ended.Reports (e : Ended) (key : ModuleKey) (outcome : Except CallFault Response) : Prop :=
  e.outcome = some outcome ∨
    e.outcome = none ∧ ∃ budget, outcome = .error (.plugin (.timeout key.text budget))

namespace ProcessHost

variable {h : ProcessHost σ} {key key' : ModuleKey}

theorem exists_state_of_start {workDir : String} {c : Connection σ}
    (hstart : h.start key workDir = .ok c) : ∃ s, c = ⟨some s, []⟩ := by
  obtain ⟨path, -, hstart⟩ := Except.bind_eq_ok_iff.mp hstart
  dsimp only at hstart
  split at hstart
  · exact nomatch hstart
  · split at hstart
    · exact nomatch hstart
    · cases hprogram : h.executables.get? path with
      | none =>
          rw [hprogram] at hstart
          exact nomatch hstart
      | some s =>
          rw [hprogram] at hstart
          exact ⟨s, (Except.ok.inj hstart).symm⟩

theorem get?_launch (hne : key' ≠ key) (running : Dict (Connection σ)) (workDir : String) :
    (h.host.launch running key workDir).2.get? key'.text = running.get? key'.text := by
  simp only [host]
  cases h.start key workDir with
  | ok c => exact Dict.get?_insert_of_ne _ c (ModuleKey.text_ne hne)
  | error e => rfl

theorem get?_call (hne : key' ≠ key) {rules : PoolRules (Dict (Connection σ))}
    (host_eq : rules.host = h.host) (w : World (Dict (Connection σ))) (request : Request) :
    (Pool.call rules w key request).2.plugins.get? key'.text = w.plugins.get? key'.text := by
  unfold Pool.call
  simp only [host_eq, host]
  split
  · exact Dict.get?_insert_of_ne _ _ (ModuleKey.text_ne hne)
  · exact Dict.get?_insert_of_ne _ _ (ModuleKey.text_ne hne)

end ProcessHost

namespace Link

/-- The link on which the plugin of a key runs. Its calls have the traces of increasing numbers. -/
structure Runs (m : Module σ) (rules : PoolRules (Dict (Connection σ))) (key : ModuleKey) (s : σ)
    (w : World (Dict (Connection σ))) (x : Link σ) : Prop where
  steps : Steps m.program key (start s) x
  idle : x.waiting = none
  empty : x.requests = []
  running : w.plugins.get? key.text = some x.connection
  traces : ∃ numbers : List Nat, x.calls.map Call.trace = numbers.map rules.trace ∧
    numbers.Pairwise (· < ·) ∧ ∀ n ∈ numbers, n < w.calls

namespace Runs

variable {m : Module σ} {rules : PoolRules (Dict (Connection σ))} {key : ModuleKey} {s : σ}
  {w w' : World (Dict (Connection σ))} {x : Link σ}

theorem safe (h : Runs m rules key s w x) (distinct : Function.Injective rules.trace) :
    x.Safe m key s := by
  obtain ⟨numbers, htraces, hincreasing, -⟩ := h.traces
  refine safe_of_distinct m key s h.steps ?_
  rw [htraces]
  exact (hincreasing.imp Nat.ne_of_lt).map rules.trace fun _ _ => distinct.ne

theorem elsewhere (h : Runs m rules key s w x)
    (plugins_eq : w'.plugins.get? key.text = w.plugins.get? key.text)
    (calls_le : w.calls ≤ w'.calls) : Runs m rules key s w' x where
  steps := h.steps
  idle := h.idle
  empty := h.empty
  running := plugins_eq.trans h.running
  traces := by
    obtain ⟨numbers, htraces, hincreasing, hlt⟩ := h.traces
    exact ⟨numbers, htraces, hincreasing, fun n hn => Nat.lt_of_lt_of_le (hlt n hn) calls_le⟩

theorem exists_call {h : ProcessHost σ} (answer_eq : h.answer = m.program)
    (host_eq : rules.host = h.host) (runs : Runs m rules key s w x) {request : Request}
    {outcome : Except CallFault Response} {called : World (Dict (Connection σ))}
    (call_eq : Pool.call rules w key request = (outcome, called)) :
    ∃ y e, Runs m rules key s called y ∧ y.ended.getLast? = some e ∧
      e.call.request = request ∧ e.Reports key outcome := by
  obtain ⟨y, steps, idle, empty, running, hended⟩ :=
    exists_steps_of_call answer_eq host_eq runs.idle runs.empty runs.running request
  rw [call_eq] at running hended
  obtain ⟨e, hlast, hcall, hreports⟩ : ∃ e, y.ended = x.ended ++ [e] ∧
      e.call = rules.nextCall w key request ∧ e.Reports key outcome := by
    rcases hended with hended | ⟨hended, htimeout⟩
    · exact ⟨_, hended, rfl, .inl rfl⟩
    · exact ⟨_, hended, rfl, .inr ⟨rfl, _, htimeout⟩⟩
  have hcalls : y.calls = x.calls ++ [rules.nextCall w key request] := by
    simp [calls, hlast, hcall, idle, runs.idle]
  obtain ⟨numbers, htraces, hincreasing, hlt⟩ := runs.traces
  -- The number of the new call is how many calls there were, which is past those of all earlier ones.
  have htraces' : y.calls.map Call.trace = (numbers ++ [w.calls]).map rules.trace := by
    rw [hcalls, List.map_append, htraces, List.map_append]
    rfl
  have hincreasing' : (numbers ++ [w.calls]).Pairwise (· < ·) :=
    List.pairwise_append.mpr ⟨hincreasing, List.pairwise_singleton _ _, by simpa using hlt⟩
  have hlt' : ∀ n ∈ numbers ++ [w.calls], n < called.calls := by
    rw [World.calls_of_call call_eq]
    intro n hn
    rcases List.mem_append.mp hn with hn | hn
    · exact Nat.lt_succ_of_lt (hlt n hn)
    · exact List.mem_singleton.mp hn ▸ Nat.lt_succ_self _
  refine ⟨y, e, ⟨runs.steps.trans steps, idle, empty, running, _, htraces', hincreasing', hlt'⟩,
    ?_, ?_, hreports⟩
  · rw [hlast, List.getLast?_concat]
  · rw [hcall]
    rfl

end Runs

theorem exists_runs_of_launch {m : Module σ} {rules : PoolRules (Dict (Connection σ))}
    {key : ModuleKey} {h : ProcessHost σ} (host_eq : rules.host = h.host)
    {w : World (Dict (Connection σ))} {plugins : Dict (Connection σ)}
    (launch_eq : rules.host.launch w.plugins key rules.workDir = (.ok (), plugins)) :
    ∃ s, Runs m rules key s (w.afterLaunch key rules.workDir true plugins) (start s) := by
  rw [host_eq] at launch_eq
  simp only [ProcessHost.host] at launch_eq
  cases hstart : h.start key rules.workDir with
  | error e =>
      rw [hstart] at launch_eq
      exact absurd (congrArg Prod.fst launch_eq) (by simp)
  | ok c =>
      rw [hstart] at launch_eq
      obtain ⟨-, rfl⟩ := Prod.mk.inj launch_eq
      obtain ⟨s, rfl⟩ := ProcessHost.exists_state_of_start hstart
      exact ⟨s, .refl, rfl, rfl, Dict.get?_insert_self .., [], rfl, .nil, by simp⟩

end Link

namespace Pool

/-- Every plugin of a pool runs on a link. -/
def Linked (m : Module σ) (rules : PoolRules (Dict (Connection σ)))
    (pool : Pool (Dict (Connection σ))) : Prop :=
  ∀ key, pool.contains key = true → ∃ s x, Link.Runs m rules key s pool.world x

section Processes

variable {m : Module σ} {h : ProcessHost σ} {rules : PoolRules (Dict (Connection σ))}
  {pool next : Pool (Dict (Connection σ))} {key : ModuleKey} {request : Request}
  {events : List Event} {outcome : Except CallFault Response}

theorem Step.get?_of_ne (host_eq : rules.host = h.host)
    (step : Step rules pool key request events outcome next) {key' : ModuleKey}
    (hne : key' ≠ key) :
    next.world.plugins.get? key'.text = pool.world.plugins.get? key'.text := by
  cases step with
  | reused known call_eq =>
      have hcall := ProcessHost.get?_call hne host_eq pool.world request
      rwa [call_eq] at hcall
  | notStarted fresh launch_eq =>
      have hlaunch := ProcessHost.get?_launch (h := h) hne pool.world.plugins rules.workDir
      rwa [← host_eq, launch_eq] at hlaunch
  | @started plugins _ called fresh launch_eq call_eq =>
      have hlaunch := ProcessHost.get?_launch (h := h) hne pool.world.plugins rules.workDir
      rw [← host_eq, launch_eq] at hlaunch
      have hcall := ProcessHost.get?_call hne host_eq
        (pool.world.afterLaunch key rules.workDir true plugins) request
      rw [call_eq] at hcall
      exact hcall.trans hlaunch

theorem Step.calls_le (step : Step rules pool key request events outcome next) :
    pool.world.calls ≤ next.world.calls := by
  rw [World.calls, World.calls, step.journal_eq, List.countP_append]
  exact Nat.le_add_right _ _

theorem Linked.exists_asked (answer_eq : h.answer = m.program) (host_eq : rules.host = h.host)
    (linked : Linked m rules pool) (step : Step rules pool key request events outcome next)
    (known : next.contains key = true) :
    ∃ s x e, Link.Runs m rules key s next.world x ∧ x.ended.getLast? = some e ∧
      e.call.request = request ∧ e.Reports key outcome := by
  cases step with
  | reused known call_eq =>
      obtain ⟨s, x, runs⟩ := linked key known
      exact ⟨s, runs.exists_call answer_eq host_eq call_eq⟩
  | notStarted fresh _ =>
      exact absurd (fresh.symm.trans known) Bool.false_ne_true
  | started fresh launch_eq call_eq =>
      obtain ⟨s, runs⟩ := Link.exists_runs_of_launch (m := m) host_eq launch_eq
      exact ⟨s, runs.exists_call answer_eq host_eq call_eq⟩

theorem Linked.step (answer_eq : h.answer = m.program) (host_eq : rules.host = h.host)
    (linked : Linked m rules pool) (step : Step rules pool key request events outcome next) :
    Linked m rules next := by
  intro key' known
  by_cases hkey : key' = key
  · obtain rfl := hkey
    obtain ⟨s, x, -, runs, -⟩ := linked.exists_asked answer_eq host_eq step known
    exact ⟨s, x, runs⟩
  -- No other key has a new handle, and no other plugin is touched.
  · have hbefore : pool.contains key' = true := by
      rcases (step.contains_iff key').mp known with hbefore | hstarted
      · exact hbefore
      · rcases step.started_subset with hnone | ⟨-, hone⟩
        · rw [hnone] at hstarted
          exact nomatch hstarted
        · rw [hone] at hstarted
          exact absurd (List.mem_singleton.mp hstarted) hkey
    obtain ⟨s, x, runs⟩ := linked key' hbefore
    exact ⟨s, x, runs.elsewhere (step.get?_of_ne host_eq hkey) step.calls_le⟩

theorem Linked.askAll (answer_eq : h.answer = m.program) (host_eq : rules.host = h.host)
    (linked : Linked m rules pool) (asks : List (ModuleKey × Request)) :
    Linked m rules (askAll rules asks pool).2 := by
  induction asks generalizing pool with
  | nil => exact linked
  | cons ask rest ih =>
      obtain ⟨events, step⟩ := exists_step rules pool ask.1 ask.2
      exact ih (linked.step answer_eq host_eq step)

/-- However often the plugins of processes are asked, each that has been launched runs on a link that
is safe, and what the next ask comes to is what its caller got there. -/
theorem askAll_safe (answer_eq : h.answer = m.program) (host_eq : rules.host = h.host)
    (distinct : Function.Injective rules.trace) (world : World (Dict (Connection σ)))
    (asks : List (ModuleKey × Request)) :
    let pool := (askAll rules asks (start world)).2
    (∀ key, pool.contains key = true →
      ∃ s x, Link.Runs m rules key s pool.world x ∧ x.Safe m key s) ∧
    ∀ key request, (pool.ask rules key request).2.contains key = true →
      ∃ s x e, Link.Runs m rules key s (pool.ask rules key request).2.world x ∧ x.Safe m key s ∧
        x.ended.getLast? = some e ∧ e.call.request = request ∧
        e.Reports key (pool.ask rules key request).1 := by
  intro pool
  have hstart : Linked m rules (start world) := fun _ => nofun
  have linked : Linked m rules pool := hstart.askAll answer_eq host_eq asks
  constructor
  · intro key known
    obtain ⟨s, x, runs⟩ := linked key known
    exact ⟨s, x, runs, runs.safe distinct⟩
  · intro key request known
    obtain ⟨events, step⟩ := exists_step rules pool key request
    obtain ⟨s, x, e, runs, hlast, hrequest, hreports⟩ :=
      linked.exists_asked answer_eq host_eq step known
    exact ⟨s, x, e, runs, runs.safe distinct, hlast, hrequest, hreports⟩

end Processes

end Pool

end ResourceGraph
