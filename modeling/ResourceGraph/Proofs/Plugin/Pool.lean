import ResourceGraph.Proofs.Generation.Lifecycle

namespace ResourceGraph

variable {σ : Type}

namespace Pool

def askAll (rules : PoolRules σ) :
    List (ModuleKey × Request) → Pool σ → List (Except CallFault Response) × Pool σ
  | [], pool => ([], pool)
  | (key, request) :: rest, pool =>
      let (outcome, pool) := pool.ask rules key request
      let (outcomes, pool) := askAll rules rest pool
      (outcome :: outcomes, pool)

/-- Asking the plugin of a key once: what it leaves in the journal, what it comes to, and the pool
after it. -/
inductive Step (rules : PoolRules σ) (pool : Pool σ) (key : ModuleKey) (request : Request) :
    List Event → Except CallFault Response → Pool σ → Prop
  | reused {outcome : Except CallFault Response} {called : World σ}
      (known : pool.contains key = true)
      (call_eq : call rules pool.world key request = (outcome, called)) :
      Step rules pool key request [.called key (rules.nextCall pool.world key request)] outcome
        ⟨pool.handles, called⟩
  | notStarted {e : PluginError} {plugins : σ} (fresh : pool.contains key = false)
      (launch_eq : rules.host.launch pool.world.plugins key rules.workDir = (.error e, plugins)) :
      Step rules pool key request [.launched key rules.workDir false] (.error (.plugin e))
        ⟨pool.handles, pool.world.afterLaunch key rules.workDir false plugins⟩
  | started {plugins : σ} {outcome : Except CallFault Response} {called : World σ}
      (fresh : pool.contains key = false)
      (launch_eq : rules.host.launch pool.world.plugins key rules.workDir = (.ok (), plugins))
      (call_eq : call rules (pool.world.afterLaunch key rules.workDir true plugins) key request =
        (outcome, called)) :
      Step rules pool key request
        [.launched key rules.workDir true,
          .called key (rules.nextCall (pool.world.afterLaunch key rules.workDir true plugins) key
            request)]
        outcome ⟨Dict.insert pool.handles key.text (), called⟩

section Step

variable {rules : PoolRules σ} {pool next : Pool σ} {key : ModuleKey} {request : Request}
  {events : List Event} {outcome : Except CallFault Response}

variable (rules pool key request) in
theorem exists_step :
    ∃ events, Step rules pool key request events (pool.ask rules key request).1
      (pool.ask rules key request).2 := by
  unfold ask
  cases hcontains : pool.contains key with
  | true =>
      rw [ensure, if_pos hcontains]
      exact ⟨_, .reused hcontains rfl⟩
  | false =>
      rw [ensure_of_fresh hcontains]
      rcases hlaunch : rules.host.launch pool.world.plugins key rules.workDir with ⟨e | ⟨⟩, plugins⟩
      · exact ⟨_, .notStarted hcontains hlaunch⟩
      · exact ⟨_, .started hcontains hlaunch rfl⟩

theorem Step.journal_eq (h : Step rules pool key request events outcome next) :
    next.world.journal = pool.world.journal ++ events := by
  cases h with
  | reused _ call_eq => exact journal_of_call call_eq
  | notStarted _ _ => rfl
  | started _ _ call_eq =>
      rw [journal_of_call call_eq]
      simp [World.afterLaunch]

theorem Step.attempts_eq (h : Step rules pool key request events outcome next) :
    events.filterMap Event.attempted? = if pool.contains key then [] else [key] := by
  cases h with
  | reused known _ => rw [known]; rfl
  | notStarted fresh _ => rw [fresh]; rfl
  | started fresh _ _ => rw [fresh]; rfl

theorem Step.no_kills (h : Step rules pool key request events outcome next) :
    events.filterMap Event.killed? = [] := by
  cases h <;> rfl

theorem Step.started_subset (h : Step rules pool key request events outcome next) :
    startedKeys events = [] ∨ pool.contains key = false ∧ startedKeys events = [key] := by
  cases h with
  | reused _ _ => exact .inl rfl
  | notStarted _ _ => exact .inl rfl
  | started fresh _ _ => exact .inr ⟨fresh, rfl⟩

theorem Step.contains_iff (h : Step rules pool key request events outcome next) (k : ModuleKey) :
    next.contains k = true ↔ pool.contains k = true ∨ k ∈ startedKeys events := by
  cases h with
  | reused _ _ => simp [contains, startedKeys, Event.started?]
  | notStarted _ _ => simp [contains, startedKeys, Event.started?]
  | started _ _ _ =>
      obtain ⟨text⟩ := k
      obtain ⟨text'⟩ := key
      simp [contains, Dict.contains_insert, startedKeys, Event.started?, or_comm]

theorem Step.sorted (h : Step rules pool key request events outcome next)
    (sorted : pool.handles.Sorted) : next.handles.Sorted := by
  cases h with
  | reused _ _ => exact sorted
  | notStarted _ _ => exact sorted
  | started _ _ _ => exact sorted.insert _ _

theorem Step.calls_eq (h : Step rules pool key request events outcome next) :
    events.filterMap Event.called? = if next.contains key then [key] else [] := by
  cases h with
  | reused known _ =>
      rw [contains] at known ⊢
      rw [known]
      rfl
  | notStarted fresh _ =>
      rw [contains] at fresh ⊢
      rw [fresh]
      rfl
  | started _ _ _ =>
      rw [contains, (Dict.contains_insert _ _ _ _).mpr (.inl rfl)]
      rfl

theorem Step.of_launch_error (h : Step rules pool key request events outcome next) {e : PluginError}
    {plugins : σ} (fresh : pool.contains key = false)
    (fails : rules.host.launch pool.world.plugins key rules.workDir = (.error e, plugins)) :
    outcome = .error (.plugin e) ∧ next.handles = pool.handles := by
  cases h with
  | reused known _ => exact absurd (known.symm.trans fresh) nofun
  | notStarted _ launch_eq =>
      obtain ⟨herror, -⟩ := Prod.mk.inj (launch_eq.symm.trans fails)
      obtain rfl := Except.error.inj herror
      exact ⟨rfl, rfl⟩
  | started _ launch_eq _ => exact nomatch launch_eq.symm.trans fails

end Step

/-- How an ask for a key changes a pool. -/
structure Asked (rules : PoolRules σ) (pool : Pool σ) (key : ModuleKey) (events : List Event)
    (outcome : Except CallFault Response) (next : Pool σ) : Prop where
  journal_eq : next.world.journal = pool.world.journal ++ events
  /-- A launch is attempted exactly for a key without a handle. -/
  attempts_eq : events.filterMap Event.attempted? = if pool.contains key then [] else [key]
  /-- A launch that fails is the outcome, and all handles stay as they were. -/
  of_launch_error : ∀ e plugins, pool.contains key = false →
    rules.host.launch pool.world.plugins key rules.workDir = (.error e, plugins) →
      outcome = .error (.plugin e) ∧ next.handles = pool.handles
  /-- A plugin that is called has a handle afterwards, whatever comes of the call. -/
  calls_eq : events.filterMap Event.called? = if next.contains key then [key] else []
  contains_iff : ∀ k, next.contains k = true ↔ pool.contains k = true ∨ k ∈ startedKeys events

theorem Step.asked {rules : PoolRules σ} {pool next : Pool σ} {key : ModuleKey}
    {request : Request} {events : List Event} {outcome : Except CallFault Response}
    (h : Step rules pool key request events outcome next) :
    Asked rules pool key events outcome next where
  journal_eq := h.journal_eq
  attempts_eq := h.attempts_eq
  of_launch_error := fun _ _ fresh fails => h.of_launch_error fresh fails
  calls_eq := h.calls_eq
  contains_iff := h.contains_iff

/-- The handles of a pool are those of the plugins that were launched, each of them once. -/
structure Tracks (world : World σ) (events : List Event) (pool : Pool σ) : Prop where
  journal_eq : pool.world.journal = world.journal ++ events
  contains_iff : ∀ key, pool.contains key = true ↔ key ∈ startedKeys events
  started_nodup : (startedKeys events).Nodup
  no_kills : events.filterMap Event.killed? = []
  sorted : pool.handles.Sorted

theorem tracks_start (world : World σ) : Tracks world [] (start world) where
  journal_eq := (List.append_nil _).symm
  contains_iff _ := by simp [start, contains, Dict.contains, startedKeys]
  started_nodup := List.nodup_nil
  no_kills := rfl
  sorted := Dict.sorted_nil

section Run

variable {rules : PoolRules σ} {world : World σ} {pool : Pool σ} {events : List Event}

theorem startedKeys_append (events more : List Event) :
    startedKeys (events ++ more) = startedKeys events ++ startedKeys more :=
  List.filterMap_append

theorem Tracks.step (h : Tracks world events pool) {key : ModuleKey} {request : Request}
    {more : List Event} {outcome : Except CallFault Response} {next : Pool σ}
    (step : Step rules pool key request more outcome next) :
    Tracks world (events ++ more) next where
  journal_eq := by rw [step.journal_eq, h.journal_eq, List.append_assoc]
  contains_iff k := by
    rw [step.contains_iff, h.contains_iff, startedKeys_append, List.mem_append]
  started_nodup := by
    rw [startedKeys_append]
    rcases step.started_subset with hnone | ⟨fresh, hone⟩
    · rw [hnone, List.append_nil]
      exact h.started_nodup
    · have hnew : key ∉ startedKeys events := by
        rw [← h.contains_iff, fresh]
        exact Bool.false_ne_true
      rw [hone]
      refine List.nodup_append.mpr ⟨h.started_nodup, List.pairwise_singleton _ key, ?_⟩
      rintro k hk k' hk' rfl
      exact hnew (List.mem_singleton.mp hk' ▸ hk)
  no_kills := by rw [List.filterMap_append, h.no_kills, step.no_kills, List.append_nil]
  sorted := step.sorted h.sorted

variable (rules) in
theorem Tracks.askAll (h : Tracks world events pool) (asks : List (ModuleKey × Request)) :
    ∃ more, Tracks world (events ++ more) (askAll rules asks pool).2 := by
  -- The pool and what has happened vary: each ask starts from what the one before has left.
  induction asks generalizing events pool with
  | nil => exact ⟨[], (List.append_nil events).symm ▸ h⟩
  | cons ask rest ih =>
      obtain ⟨key, request⟩ := ask
      obtain ⟨first, step⟩ := exists_step rules pool key request
      obtain ⟨more, hrest⟩ := ih (h.step step)
      exact ⟨first ++ more, List.append_assoc events first more ▸ hrest⟩

end Run

/-- Closing a pool kills the plugins of these keys, which are those with a handle. -/
structure Closes (rules : PoolRules σ) (pool : Pool σ) (keys : List ModuleKey)
    (failures : List PluginError) (final : World σ) : Prop where
  mem_keys_iff : ∀ key, key ∈ keys ↔ pool.contains key = true
  increasing : keys.Pairwise fun key key' => key.text < key'.text
  journal_eq : final.journal = pool.world.journal ++ keys.map Event.killed
  failures_eq : failures = failuresOf (rules.host.killOutcomes keys pool.world.plugins)

theorem exists_closes (rules : PoolRules σ) {pool : Pool σ} (sorted : pool.handles.Sorted) :
    ∃ keys, Closes rules pool keys (pool.close rules).1 (pool.close rules).2 := by
  have hhandles : pool.handles =
      ((Dict.keys pool.handles).map ModuleKey.mk).map fun k => (k.text, ()) := by
    simp [Dict.keys, Function.comp_def]
  obtain ⟨final, hclose, hjournal⟩ :=
    exists_close_eq rules ((Dict.keys pool.handles).map ModuleKey.mk) pool.world
  rw [← hhandles] at hclose
  refine ⟨(Dict.keys pool.handles).map ModuleKey.mk, ?_⟩
  rw [hclose]
  refine ⟨?_, List.pairwise_map.mpr sorted.keys_pairwise, hjournal, rfl⟩
  intro key
  rw [contains, Dict.contains, ← Option.ne_none_iff_isSome, Ne, Dict.get?_eq_none_iff,
    Decidable.not_not]
  constructor
  · intro h
    obtain ⟨_, htext, rfl⟩ := List.mem_map.mp h
    exact htext
  · intro h
    exact List.mem_map.mpr ⟨key.text, h, rfl⟩

/-- However often plugins are asked and whatever comes of it, the handles are those of the plugins
that have been launched, each once. The next ask launches its plugin only without a handle, and
closing kills the plugin of every handle once. -/
theorem askAll_accounted (rules : PoolRules σ) (world : World σ)
    (asks : List (ModuleKey × Request)) :
    let pool := (askAll rules asks (start world)).2
    (∃ events, Tracks world events pool) ∧
      (∀ key request, ∃ events,
        Step rules pool key request events (pool.ask rules key request).1
            (pool.ask rules key request).2 ∧
          Asked rules pool key events (pool.ask rules key request).1
            (pool.ask rules key request).2) ∧
      ∃ keys, Closes rules pool keys (pool.close rules).1 (pool.close rules).2 := by
  intro pool
  obtain ⟨events, htracks⟩ := (tracks_start world).askAll rules asks
  refine ⟨⟨_, htracks⟩, ?_, exists_closes rules htracks.sorted⟩
  intro key request
  obtain ⟨more, step⟩ := exists_step rules pool key request
  exact ⟨more, step, step.asked⟩

end Pool

end ResourceGraph
