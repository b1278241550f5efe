theorem List.mapM_eq_pure {m : Type u → Type v} [Monad m] [LawfulMonad m] {α : Type w} {β : Type u}
    {f : α → m β} {xs : List α} {ys : List β} (h : xs.map f = ys.map pure) :
    xs.mapM f = pure ys := by
  calc xs.mapM f
    _ = (xs.map f).mapM id := by rw [List.mapM_map, Function.id_comp]
    _ = (ys.map pure).mapM id := by rw [h]
    _ = ys.mapM fun y => pure y := by rw [List.mapM_map, Function.id_comp]
    _ = pure ys := by rw [List.mapM_pure, List.map_id']

namespace Except

variable {ε : Type u} {α : Type v} {β : Type v}

theorem map_eq_ok_iff {f : α → β} {x : Except ε α} {b : β} :
    x.map f = .ok b ↔ ∃ a, x = .ok a ∧ f a = b := by
  cases x <;> simp [Except.map]

theorem map_eq_error_iff {f : α → β} {x : Except ε α} {e : ε} :
    x.map f = .error e ↔ x = .error e := by
  cases x <;> simp [Except.map]

theorem bind_eq_ok_iff {f : α → Except ε β} {x : Except ε α} {b : β} :
    x >>= f = .ok b ↔ ∃ a, x = .ok a ∧ f a = .ok b := by
  cases x <;> simp [bind, Except.bind]

theorem mapError_eq_ok_iff {ε' : Type u} {f : ε → ε'} {x : Except ε α} {a : α} :
    x.mapError f = .ok a ↔ x = .ok a := by
  cases x with
  | error e =>
      constructor
      · exact nofun
      · exact nofun
  | ok b =>
      constructor
      · intro h
        rw [Except.ok.inj h]
      · intro h
        rw [Except.ok.inj h]
        rfl

theorem toOption_eq_some_iff {x : Except ε α} {a : α} : x.toOption = some a ↔ x = .ok a := by
  cases x <;> simp [Except.toOption]

theorem pure_eq_ok_iff {a b : α} : (pure a : Except ε α) = .ok b ↔ a = b := by
  simp [pure, Except.pure]

theorem bind_eq_error_iff {f : α → Except ε β} {x : Except ε α} {e : ε} :
    x >>= f = .error e ↔ x = .error e ∨ ∃ a, x = .ok a ∧ f a = .error e := by
  cases x <;> simp [bind, Except.bind]

theorem mapError_eq_error_iff {ε' : Type u} {f : ε → ε'} {x : Except ε α} {e : ε'} :
    x.mapError f = .error e ↔ ∃ fault, x = .error fault ∧ f fault = e := by
  cases x with
  | error fault =>
      change Except.error (f fault) = .error e ↔ _
      rw [Except.error.injEq]
      constructor
      · exact fun h => ⟨fault, rfl, h⟩
      · rintro ⟨_, hfault, h⟩
        exact Except.error.inj hfault ▸ h
  | ok a =>
      constructor
      · exact nofun
      · exact nofun

theorem mapM_eq_ok_iff {γ : Type w} {f : γ → Except ε β} {xs : List γ} {ys : List β} :
    xs.mapM f = .ok ys ↔ xs.map f = ys.map .ok := by
  constructor
  · intro h
    induction xs generalizing ys with
    | nil =>
        obtain rfl := pure_eq_ok_iff.mp h
        rfl
    | cons x rest ih =>
        rw [List.mapM_cons] at h
        obtain ⟨y, hy, h⟩ := bind_eq_ok_iff.mp h
        obtain ⟨ys', hys, h⟩ := bind_eq_ok_iff.mp h
        obtain rfl := pure_eq_ok_iff.mp h
        rw [List.map_cons, List.map_cons, hy, ih hys]
  · exact List.mapM_eq_pure

theorem exists_of_mapM_eq_error {γ : Type w} {f : γ → Except ε β} {xs : List γ} {e : ε}
    (h : xs.mapM f = .error e) : ∃ x ∈ xs, f x = .error e := by
  induction xs with
  | nil => exact nomatch h
  | cons x rest ih =>
      rw [List.mapM_cons] at h
      rcases bind_eq_error_iff.mp h with hx | ⟨y, -, h⟩
      · exact ⟨x, List.mem_cons_self, hx⟩
      · rcases bind_eq_error_iff.mp h with hrest | ⟨ys, -, h⟩
        · obtain ⟨x', hx', hfails⟩ := ih hrest
          exact ⟨x', List.mem_cons_of_mem x hx', hfails⟩
        · exact nomatch h

theorem mapM_eq_ok_iff_eq_map {γ : Type w} {f : γ → Except ε β} {g : β → γ}
    (h : ∀ x y, f x = .ok y ↔ x = g y) {xs : List γ} {ys : List β} :
    xs.mapM f = .ok ys ↔ xs = ys.map g := by
  rw [mapM_eq_ok_iff]
  induction xs generalizing ys with
  | nil => cases ys <;> simp
  | cons x rest ih =>
      cases ys with
      | nil => simp
      | cons y ys => rw [List.map_cons, List.map_cons, List.map_cons, List.cons.injEq,
          List.cons.injEq, h, ih]

/-- A computation succeeds on the first values of a list, and fails on the next one. -/
def FirstError (f : α → Except ε β) (xs : List α) (e : ε) : Prop :=
  ∃ before x after, xs = before ++ x :: after ∧ (∀ y ∈ before, ∃ b, f y = .ok b) ∧ f x = .error e

theorem not_firstError_nil {f : α → Except ε β} {e : ε} : ¬FirstError f [] e := by
  rintro ⟨before, x, after, h, -⟩
  exact List.append_ne_nil_of_right_ne_nil before (List.cons_ne_nil x after) h.symm

theorem firstError_cons_iff {f : α → Except ε β} {x : α} {xs : List α} {e : ε} :
    FirstError f (x :: xs) e ↔ f x = .error e ∨ (∃ b, f x = .ok b) ∧ FirstError f xs e := by
  constructor
  · rintro ⟨before, y, after, h, succeed, fails⟩
    cases before with
    | nil =>
        obtain ⟨rfl, -⟩ := List.cons.inj h
        exact .inl fails
    | cons z before =>
        obtain ⟨rfl, rfl⟩ := List.cons.inj h
        refine .inr ⟨succeed x List.mem_cons_self, before, y, after, rfl, ?_, fails⟩
        exact fun w hw => succeed w (List.mem_cons_of_mem x hw)
  · rintro (fails | ⟨succeeds, before, y, after, rfl, succeed, fails⟩)
    · exact ⟨[], x, xs, rfl, nofun, fails⟩
    · refine ⟨x :: before, y, after, rfl, ?_, fails⟩
      exact List.forall_mem_cons.mpr ⟨succeeds, succeed⟩

end Except
