import ResourceGraph.Proofs.Generation.Lifecycle
import ResourceGraph.Proofs.Outcome

namespace ResourceGraph

variable {σ : Type}

/-- In some states every response is a function of the key and the request, and no operation that
succeeds leaves these states. -/
structure Host.AnswersBy (host : Host σ) (answer : ModuleKey → Request → Response)
    (sound : σ → Prop) : Prop where
  launched : ∀ s key workDir s', sound s → host.launch s key workDir = (.ok (), s') → sound s'
  answered : ∀ s key call response, sound s → (host.react s key call).outcome = .ok response →
    response = answer key call.request ∧ sound (host.react s key call).finished
  killed : ∀ s key s', sound s → host.kill s key = (.ok (), s') → sound s'

def PluginSource.AnswersBy (source : PluginSource σ) (answer : ModuleKey → Request → Response)
    (sound : σ → Prop) : Prop :=
  ∀ host timeout, source.host = .ok (host, timeout) → host.AnswersBy answer sound

/-- What modules return in turn when every response is a function of the key and the request. -/
def Generation.resultsBy (answer : ModuleKey → Request → Response) (base : RequestBase)
    (workloadKey : Option ModuleKey) :
    Briefings → ModuleResults → Except GenerationError ModuleResults
  | [], a => .ok a
  | (text, briefing) :: rest, a => do
      let request ← base.request briefing
      let a ← a.add ⟨text⟩ workloadKey briefing (answer ⟨text⟩ request)
      resultsBy answer base workloadKey rest a

namespace Host.AnswersBy

variable {rules : PoolRules σ} {answer : ModuleKey → Request → Response} {sound : σ → Prop}

theorem call (answers : rules.host.AnswersBy answer sound) {w called : World σ} {key : ModuleKey}
    {request : Request} {response : Response} (start : sound w.plugins)
    (h : Pool.call rules w key request = (.ok response, called)) :
    response = answer key request ∧ sound called.plugins := by
  unfold Pool.call at h
  simp only at h
  split at h
  · obtain ⟨houtcome, rfl⟩ := Prod.mk.inj h
    exact answers.answered _ _ _ _ start houtcome
  · cases h

theorem ask (answers : rules.host.AnswersBy answer sound) {pool next : Pool σ} {key : ModuleKey}
    {request : Request} {response : Response} (start : sound pool.world.plugins)
    (h : pool.ask rules key request = (.ok response, next)) :
    response = answer key request ∧ sound next.world.plugins := by
  unfold Pool.ask at h
  cases hcontains : pool.contains key with
  | true =>
      rw [Pool.ensure, if_pos hcontains] at h
      obtain ⟨houtcome, rfl⟩ := Prod.mk.inj h
      exact answers.call start (Prod.ext houtcome rfl)
  | false =>
      rw [Pool.ensure_of_fresh hcontains] at h
      rcases hlaunch : rules.host.launch pool.world.plugins key rules.workDir with ⟨e | ⟨⟩, plugins⟩
      · rw [hlaunch] at h
        cases h
      · rw [hlaunch] at h
        obtain ⟨houtcome, rfl⟩ := Prod.mk.inj h
        have hlaunched : sound (pool.world.afterLaunch key rules.workDir true plugins).plugins :=
          answers.launched _ _ _ _ start hlaunch
        exact answers.call hlaunched (Prod.ext houtcome rfl)

theorem askModules (answers : rules.host.AnswersBy answer sound) {base : RequestBase}
    {workloadKey : Option ModuleKey} {briefings : Briefings} {a results : ModuleResults}
    {pool final : Pool σ} (start : sound pool.world.plugins)
    (h : Generation.askModules rules base workloadKey briefings a pool = (.ok results, final)) :
    Generation.resultsBy answer base workloadKey briefings a = .ok results ∧
      sound final.world.plugins := by
  -- The results so far are the same on both sides; a request that fails ends the run.
  induction briefings generalizing a pool with
  | nil =>
      obtain ⟨hresults, rfl⟩ := Prod.mk.inj h
      exact ⟨hresults, start⟩
  | cons e rest ih =>
      obtain ⟨text, briefing⟩ := e
      rw [Generation.askModules] at h
      rw [Generation.resultsBy]
      cases hrequest : base.request briefing with
      | error e =>
          rw [hrequest] at h
          cases h
      | ok request =>
          rcases hask : pool.ask rules ⟨text⟩ request with ⟨fault | response, asked⟩
          · simp only [hrequest, hask] at h
            cases h
          · obtain ⟨rfl, hsound⟩ := answers.ask start hask
            simp only [hrequest, hask] at h
            cases hadd : a.add ⟨text⟩ workloadKey briefing (answer ⟨text⟩ request) with
            | error e =>
                rw [hadd] at h
                cases h
            | ok a' =>
                rw [hadd] at h
                obtain ⟨hresults, hfinal⟩ := ih hsound h
                refine ⟨?_, hfinal⟩
                rw [Except.bind_eq_ok_iff]
                refine ⟨request, rfl, ?_⟩
                rw [Except.bind_eq_ok_iff]
                exact ⟨a', hadd, hresults⟩

theorem killAll (answers : rules.host.AnswersBy answer sound) {keys : List String} {w final : World σ}
    (start : sound w.plugins) (h : Pool.killAll rules keys w = ([], final)) :
    sound final.plugins := by
  induction keys generalizing w with
  | nil =>
      obtain ⟨-, rfl⟩ := Prod.mk.inj h
      exact start
  | cons key rest ih =>
      rw [Pool.killAll] at h
      rcases hkill : rules.host.kill w.plugins ⟨key⟩ with ⟨e | ⟨⟩, plugins⟩
      · rw [hkill] at h
        cases h
      · rw [hkill] at h
        exact ih (answers.killed _ _ _ start hkill) h

theorem collect (answers : rules.host.AnswersBy answer sound) {base : RequestBase} {plan : Plan}
    {w final : World σ} {results : ModuleResults} (start : sound w.plugins)
    (h : Generation.collect rules base plan w = (.ok results, final)) :
    Generation.resultsBy answer base plan.workloadKey plan.briefings .empty = .ok results ∧
      sound final.plugins := by
  unfold Generation.collect at h
  rcases hask : Generation.askModules rules base plan.workloadKey plan.briefings .empty
    (.start w) with ⟨outcome, pool⟩
  rcases hclose : pool.close rules with ⟨failures, closed⟩
  simp only [hask, hclose] at h
  obtain ⟨hteardown, rfl⟩ := Prod.mk.inj h
  obtain ⟨⟨a, rfl⟩, rfl⟩ := Generation.withTeardown_isOk_iff.mp ⟨results, hteardown⟩
  obtain rfl := Except.ok.inj hteardown
  have hstart : sound (Pool.start w).world.plugins := start
  obtain ⟨hresults, hsound⟩ := answers.askModules hstart hask
  exact ⟨hresults, answers.killAll hsound hclose⟩

end Host.AnswersBy

/-- The results of a plan do not depend on the world in which its modules are asked. -/
theorem PluginSource.AnswersBy.callModules {source : PluginSource σ}
    {answer : ModuleKey → Request → Response} {sound : σ → Prop}
    (answers : source.AnswersBy answer sound) {g : Generation} {plan : Plan} {w final : World σ}
    {results : ModuleResults} (start : sound w.plugins)
    (h : g.callModules source plan w = (.ok results, final)) :
    ∃ base, g.requestBase = .ok base ∧
      Generation.resultsBy answer base plan.workloadKey plan.briefings .empty = .ok results ∧
      sound final.plugins := by
  unfold Generation.callModules at h
  cases hrules : source.rules g.stack.path with
  | error e =>
      rw [hrules] at h
      cases h
  | ok rules =>
      cases hbase : g.requestBase with
      | error e =>
          simp only [hrules, hbase] at h
          cases h
      | ok base =>
          simp only [hrules, hbase] at h
          obtain ⟨⟨host, timeout⟩, hhost, rfl⟩ := Except.map_eq_ok_iff.mp hrules
          have hanswers : host.AnswersBy answer sound := answers host timeout hhost
          exact ⟨base, rfl, Host.AnswersBy.collect hanswers start h⟩

end ResourceGraph
