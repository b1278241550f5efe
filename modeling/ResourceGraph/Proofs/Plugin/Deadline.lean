import ResourceGraph.Proofs.Plugin.Pool

namespace ResourceGraph

variable {σ : Type}

namespace PoolRules

theorem budget_le_timeout (rules : PoolRules σ) (now : Nat) : rules.budget now ≤ rules.timeout := by
  unfold budget
  split
  · exact Nat.min_le_left _ _
  · exact Nat.le_refl _

theorem add_budget_le {rules : PoolRules σ} {now deadline : Nat}
    (h : rules.deadline = some deadline) (before : now ≤ deadline) :
    now + rules.budget now ≤ deadline := by
  have hbudget : rules.budget now ≤ deadline - now := by
    rw [budget, h]
    exact Nat.min_le_right _ _
  omega

end PoolRules

namespace Pool

/-- What the plugin of a key does with a request, once it is launched. -/
def reaction (rules : PoolRules σ) (pool : Pool σ) (key : ModuleKey) (request : Request) :
    Except PluginError (Reaction σ) :=
  match pool.ensure rules key with
  | (.error e, _) => .error e
  | (.ok _, pool) =>
      .ok (rules.host.react pool.world.plugins key (rules.nextCall pool.world key request))

def DueWithin (budget : Nat) (r : Reaction σ) : Prop := ∃ delay ≤ budget, r.delay = some delay

/-- How long an ask takes and what it comes to, by the budget that is left when it begins. -/
structure Timely (rules : PoolRules σ) (pool : Pool σ) (key : ModuleKey) (request : Request)
    (outcome : Except CallFault Response) (next : Pool σ) : Prop where
  now_le : pool.world.now ≤ next.world.now
  le_budget : next.world.now ≤ pool.world.now + rules.budget pool.world.now
  /-- A launch takes no time, also when it fails. -/
  of_launch_error : ∀ e, pool.reaction rules key request = .error e →
    outcome = .error (.plugin e) ∧ next.world.now = pool.world.now
  of_answer : ∀ r delay, pool.reaction rules key request = .ok r → r.delay = some delay →
    delay ≤ rules.budget pool.world.now →
      outcome = r.outcome ∧ next.world.now = pool.world.now + delay
  of_silence : ∀ r, pool.reaction rules key request = .ok r →
    ¬ DueWithin (rules.budget pool.world.now) r →
      outcome = .error (.plugin (.timeout key.text (rules.budget pool.world.now))) ∧
        next.world.now = pool.world.now + rules.budget pool.world.now
  /-- A timeout that the plugin has not reported itself is one of the pool: no answer was due within
  the budget, which is the time that is reported. -/
  of_timeout : ∀ r key' elapsed, pool.reaction rules key request = .ok r →
    outcome = .error (.plugin (.timeout key' elapsed)) → outcome ≠ r.outcome →
      key' = key.text ∧ elapsed = rules.budget pool.world.now ∧
        ∀ delay, r.delay = some delay → rules.budget pool.world.now < delay

section Ask

variable {rules : PoolRules σ} {pool : Pool σ} {key : ModuleKey} {request : Request}

theorem now_ensure (rules : PoolRules σ) (pool : Pool σ) (key : ModuleKey) :
    (pool.ensure rules key).2.world.now = pool.world.now := by
  unfold ensure
  split
  · rfl
  · rfl

theorem call_of_answer {w : World σ} {delay : Nat}
    (answers : (rules.host.react w.plugins key (rules.nextCall w key request)).delay = some delay)
    (within : delay ≤ rules.budget w.now) :
    (call rules w key request).1 =
        (rules.host.react w.plugins key (rules.nextCall w key request)).outcome ∧
      (call rules w key request).2.now = w.now + delay := by
  rw [PoolRules.nextCall] at answers ⊢
  simp only [call, answers, Option.filter, within, decide_true, if_true]
  exact ⟨trivial, trivial⟩

theorem call_of_silence {w : World σ}
    (silent : ¬ DueWithin (rules.budget w.now)
      (rules.host.react w.plugins key (rules.nextCall w key request))) :
    (call rules w key request).1 =
        .error (.plugin (.timeout key.text (rules.budget w.now))) ∧
      (call rules w key request).2.now = w.now + rules.budget w.now := by
  have hnone : (rules.host.react w.plugins key (rules.nextCall w key request)).delay.filter
      (· ≤ rules.budget w.now) = none := by
    rw [Option.filter_eq_none_iff]
    intro delay hdelay hle
    exact silent ⟨delay, of_decide_eq_true hle, hdelay⟩
  rw [PoolRules.nextCall] at hnone
  simp only [call, hnone]
  exact ⟨trivial, trivial⟩

theorem ask_of_reaction {r : Reaction σ} (h : pool.reaction rules key request = .ok r) :
    ∃ w : World σ, w.now = pool.world.now ∧
      rules.host.react w.plugins key (rules.nextCall w key request) = r ∧
      (pool.ask rules key request).1 = (call rules w key request).1 ∧
      (pool.ask rules key request).2.world = (call rules w key request).2 := by
  have hnow := now_ensure rules pool key
  unfold reaction at h
  unfold ask
  rcases hensure : pool.ensure rules key with ⟨e | ⟨⟩, launched⟩
  · rw [hensure] at h
    exact nomatch h
  · rw [hensure] at h hnow
    exact ⟨launched.world, hnow, Except.ok.inj h, rfl, rfl⟩

theorem ask_of_launch_error {e : PluginError} (h : pool.reaction rules key request = .error e) :
    (pool.ask rules key request).1 = .error (.plugin e) ∧
      (pool.ask rules key request).2.world.now = pool.world.now := by
  have hnow := now_ensure rules pool key
  unfold reaction at h
  unfold ask
  rcases hensure : pool.ensure rules key with ⟨e' | ⟨⟩, launched⟩
  · rw [hensure] at h hnow
    obtain rfl := Except.error.inj h
    exact ⟨rfl, hnow⟩
  · rw [hensure] at h
    exact nomatch h

theorem ask_of_answer {r : Reaction σ} {delay : Nat}
    (h : pool.reaction rules key request = .ok r) (answers : r.delay = some delay)
    (within : delay ≤ rules.budget pool.world.now) :
    (pool.ask rules key request).1 = r.outcome ∧
      (pool.ask rules key request).2.world.now = pool.world.now + delay := by
  obtain ⟨w, hnow, rfl, houtcome, hworld⟩ := ask_of_reaction h
  rw [houtcome, hworld, ← hnow]
  exact call_of_answer answers (hnow ▸ within)

theorem ask_of_silence {r : Reaction σ} (h : pool.reaction rules key request = .ok r)
    (silent : ¬ DueWithin (rules.budget pool.world.now) r) :
    (pool.ask rules key request).1 =
        .error (.plugin (.timeout key.text (rules.budget pool.world.now))) ∧
      (pool.ask rules key request).2.world.now =
        pool.world.now + rules.budget pool.world.now := by
  obtain ⟨w, hnow, rfl, houtcome, hworld⟩ := ask_of_reaction h
  rw [houtcome, hworld, ← hnow]
  exact call_of_silence (hnow ▸ silent)

end Ask

theorem timely_ask (rules : PoolRules σ) (pool : Pool σ) (key : ModuleKey) (request : Request) :
    Timely rules pool key request (pool.ask rules key request).1
      (pool.ask rules key request).2 := by
  -- The clock moves by nothing, by the delay of the answer, or by the whole budget.
  have hclock : ∃ elapsed ≤ rules.budget pool.world.now,
      (pool.ask rules key request).2.world.now = pool.world.now + elapsed := by
    cases hreaction : pool.reaction rules key request with
    | error e => exact ⟨0, Nat.zero_le _, (ask_of_launch_error hreaction).2⟩
    | ok r =>
        by_cases hdue : DueWithin (rules.budget pool.world.now) r
        · obtain ⟨delay, hle, hdelay⟩ := hdue
          exact ⟨delay, hle, (ask_of_answer hreaction hdelay hle).2⟩
        · exact ⟨_, Nat.le_refl _, (ask_of_silence hreaction hdue).2⟩
  obtain ⟨elapsed, hle, hnow⟩ := hclock
  constructor
  case now_le => omega
  case le_budget => omega
  case of_launch_error =>
    intro e h
    exact ask_of_launch_error h
  case of_answer =>
    intro r delay h hdelay hwithin
    exact ask_of_answer h hdelay hwithin
  case of_silence =>
    intro r h hsilent
    exact ask_of_silence h hsilent
  case of_timeout =>
    intro r key' reported h htimeout hother
    have hsilent : ¬ DueWithin (rules.budget pool.world.now) r := by
      rintro ⟨delay, hwithin, hdelay⟩
      exact hother (ask_of_answer h hdelay hwithin).1
    rw [(ask_of_silence h hsilent).1] at htimeout
    cases htimeout
    refine ⟨rfl, rfl, ?_⟩
    intro delay hdelay
    apply Nat.lt_of_not_le
    intro hwithin
    exact hsilent ⟨delay, hwithin, hdelay⟩

section Run

variable {rules : PoolRules σ}

theorem now_askAll_le_deadline {deadline : Nat} (h : rules.deadline = some deadline)
    (asks : List (ModuleKey × Request)) {pool : Pool σ} (before : pool.world.now ≤ deadline) :
    (askAll rules asks pool).2.world.now ≤ deadline := by
  induction asks generalizing pool with
  | nil => exact before
  | cons ask rest ih =>
      obtain ⟨key, request⟩ := ask
      apply ih
      calc (pool.ask rules key request).2.world.now
          ≤ pool.world.now + rules.budget pool.world.now :=
            (timely_ask rules pool key request).le_budget
        _ ≤ deadline := PoolRules.add_budget_le h before

variable (rules) in
theorem now_askAll_le (asks : List (ModuleKey × Request)) (pool : Pool σ) :
    (askAll rules asks pool).2.world.now ≤ pool.world.now + asks.length * rules.timeout := by
  induction asks generalizing pool with
  | nil => exact Nat.le_add_right _ _
  | cons ask rest ih =>
      obtain ⟨key, request⟩ := ask
      have hrest := ih (pool.ask rules key request).2
      have hfirst := (timely_ask rules pool key request).le_budget
      have htimeout := rules.budget_le_timeout pool.world.now
      have hlength : (rest.length + 1) * rules.timeout =
          rest.length * rules.timeout + rules.timeout := Nat.succ_mul _ _
      rw [List.length_cons, hlength]
      exact Nat.le_trans hrest (by omega)

end Run

/-- However often plugins are asked, each ask keeps to the budget that is left when it begins. Hence
the clock does not pass the deadline, and moves by at most the timeout for each ask. -/
theorem askAll_timely (rules : PoolRules σ) (pool : Pool σ)
    (before : ∀ deadline, rules.deadline = some deadline → pool.world.now ≤ deadline)
    (asks : List (ModuleKey × Request)) :
    let reached := (askAll rules asks pool).2
    (∀ key request, Timely rules reached key request (reached.ask rules key request).1
        (reached.ask rules key request).2) ∧
      (∀ deadline, rules.deadline = some deadline → reached.world.now ≤ deadline) ∧
      reached.world.now ≤ pool.world.now + asks.length * rules.timeout := by
  intro reached
  refine ⟨timely_ask rules reached, ?_, now_askAll_le rules asks pool⟩
  intro deadline h
  exact now_askAll_le_deadline h asks (before deadline h)

def slowHost : Host Unit :=
  .ofBehaviours fun key =>
    if key = ⟨"acme/slow@1"⟩ then { Behaviour.silent with delay := some 30 }
    else if key = ⟨"acme/stuck@1"⟩ then { Behaviour.silent with delay := none }
    else { Behaviour.silent with delay := some 1 }

def slowRules : PoolRules Unit := ⟨slowHost, fun _ => "t", "/work", 50, some 70⟩

def slowAsks : List (ModuleKey × Request) :=
  ["acme/slow@1", "acme/stuck@1", "acme/quick@1"].map fun key =>
    (⟨key⟩, ⟨"shop", "dev", "web", none, none, none, none, none⟩)

/-- The second ask is cut off at the deadline, and the third has no time left. -/
theorem askAll_timely_at_deadline :
    (askAll slowRules slowAsks (start (.start ()))).1 =
        [.ok .empty, .error (.plugin (.timeout "acme/stuck@1" 40)),
          .error (.plugin (.timeout "acme/quick@1" 0))] ∧
      (askAll slowRules slowAsks (start (.start ()))).2.world.now = 70 ∧
      let reached := (askAll slowRules slowAsks (start (.start ()))).2
      (∀ key request, Timely slowRules reached key request
          (reached.ask slowRules key request).1 (reached.ask slowRules key request).2) ∧
        (∀ deadline, slowRules.deadline = some deadline → reached.world.now ≤ deadline) ∧
        reached.world.now ≤ 0 + slowAsks.length * slowRules.timeout := by
  refine ⟨rfl, rfl, ?_⟩
  exact askAll_timely slowRules (start (.start ())) (fun _ _ => Nat.zero_le _) slowAsks

end Pool

end ResourceGraph
