import ResourceGraph.Generation

namespace ResourceGraph.Generation

variable {σ α β : Type}

namespace Action

/-- The graph of the caller stays as it was, whatever comes of the action. -/
def Keeps (a : Action σ α) : Prop :=
  ∀ s, (a.runFrom s).2.graph = s.graph

/-- The graph of the caller stays as it was where the action fails. -/
def Atomic (a : Action σ α) : Prop :=
  ∀ s e after, a.runFrom s = (.error e, after) → after.graph = s.graph

theorem runFrom_bind (a : Action σ α) (f : α → Action σ β) (s : State σ) :
    (a >>= f).runFrom s =
      match a.runFrom s with
      | (.error e, after) => (.error e, after)
      | (.ok x, after) => (f x).runFrom after := by
  change (ExceptT.bindCont f (a.runFrom s).1 (a.runFrom s).2 : Id _) = _
  rcases a.runFrom s with ⟨e | x, after⟩ <;> rfl

theorem runFrom_get (s : State σ) : (get : Action σ (State σ)).runFrom s = (.ok s, s) := rfl

theorem runFrom_lift (x : Except GenerationError α) (s : State σ) :
    (liftM x : Action σ α).runFrom s = (x, s) := rfl

theorem runFrom_onWorld (f : World σ → Except GenerationError α × World σ) (s : State σ) :
    (onWorld f).runFrom s = ((f s.world).1, { s with world := (f s.world).2 }) := rfl

theorem runFrom_publish (graph : Graph) (s : State σ) :
    (publish graph).runFrom s = (.ok (), { s with graph }) := rfl

theorem keeps_get : (get : Action σ (State σ)).Keeps := fun _ => rfl

theorem keeps_lift (x : Except GenerationError α) : (liftM x : Action σ α).Keeps := fun _ => rfl

theorem keeps_onWorld (f : World σ → Except GenerationError α × World σ) : (onWorld f).Keeps :=
  fun _ => rfl

theorem atomic_publish (graph : Graph) : (publish graph : Action σ Unit).Atomic :=
  fun _ _ _ h => nomatch h

theorem Keeps.bind_atomic {a : Action σ α} {f : α → Action σ β} (keeps : a.Keeps)
    (atomic : ∀ x, (f x).Atomic) : (a >>= f).Atomic := by
  intro s e after h
  have kept := keeps s
  rw [runFrom_bind] at h
  rcases hrun : a.runFrom s with ⟨e' | x, middle⟩
  · rw [hrun] at h kept
    obtain ⟨-, rfl⟩ := Prod.mk.inj h
    exact kept
  · rw [hrun] at h kept
    exact (atomic x middle e after h).trans kept

end Action

open ResourceGraph.Generation.Action

/-- A generation that fails leaves the graph of the caller as it was: nothing fails once the copy is
published. -/
theorem addInto_atomic (g : Generation) (source : PluginSource σ) (orderer : Orderer) :
    (g.addInto source orderer).Atomic := by
  refine keeps_get.bind_atomic fun s => ?_
  refine (keeps_lift (g.plan s.graph.resources)).bind_atomic fun plan => ?_
  refine (keeps_onWorld (g.callModules source plan)).bind_atomic fun results => ?_
  refine (keeps_lift (plan.finish orderer results)).bind_atomic fun resources => ?_
  exact atomic_publish _

theorem addTo_eq (g : Generation) (source : PluginSource σ) (orderer : Orderer) (graph : Graph)
    (world : World σ) :
    g.addTo source orderer graph world =
      match g.plan graph.resources with
      | .error e => (.error e, world)
      | .ok plan =>
          let (results, world) := g.callModules source plan world
          (do
            let resources ← plan.finish orderer (← results)
            return ⟨resources, g.workspace.secretStore, g.workspace.context⟩, world) := by
  simp only [addTo, addInto, runFrom_bind, runFrom_get, runFrom_lift, runFrom_onWorld]
  cases hplan : g.plan graph.resources with
  | error e => rfl
  | ok plan =>
      simp only
      rcases g.callModules source plan world with ⟨e | results, after⟩
      · rfl
      · cases hfinish : plan.finish orderer results with
        | error e => simp only [bind, Except.bind, hfinish, Except.map]
        | ok resources =>
            simp only [bind, Except.bind, hfinish, runFrom_publish, Except.map, pure, Except.pure]

theorem addTo_eq_ok {g : Generation} {source : PluginSource σ} {orderer : Orderer} {graph : Graph}
    {world : World σ} {u : Unit} {after : State σ}
    (h : (g.addInto source orderer).runFrom ⟨graph, world⟩ = (.ok u, after)) :
    (g.addTo source orderer graph world).1 = .ok after.graph := by
  rw [addTo, h]
  rfl

end ResourceGraph.Generation
