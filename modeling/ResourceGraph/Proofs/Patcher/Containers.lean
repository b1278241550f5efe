import Mathlib.Data.List.Forall2
import ResourceGraph.Proofs.Patcher.Structure

namespace ResourceGraph

open Json

namespace WorkloadPatch

variable {id : String} {removals additions : List Variable} {c c' : Json} {s : Step}
  {items items' : List Json} {env : Option (List Json)} {members : Dict Json}

def environmentAt (i : Nat) : Location := Location.ofNames containers ++ [.item i, .member "env"]

def withEnv (members : Dict Json) : Option (List Json) → Dict Json
  | some items => members.insert "env" (.array items)
  | none => members

theorem patchContainer_object (env : Option (List Json))
    (henv : Dict.get? members "env" = env.map array) :
    patchContainer id removals additions (.object members) =
      .ok (.object (withEnv members (patchEnv removals additions env))) := by
  rw [patchContainer]
  cases env with
  | none =>
      simp only [henv, Option.map_none, pure_bind]
      cases patchEnv removals additions none <;> rfl
  | some items =>
      simp only [henv, Option.map_some, pure_bind]
      cases patchEnv removals additions (some items) <;> rfl

theorem exists_env_of_patchContainer (h : patchContainer id removals additions c = .ok c') :
    ∃ members, ∃ env : Option (List Json),
      c = .object members ∧ Dict.get? members "env" = env.map array ∧
        c' = .object (withEnv members (patchEnv removals additions env)) := by
  cases c with
  | object members =>
      obtain ⟨env, henv⟩ : ∃ env : Option (List Json), Dict.get? members "env" = env.map array := by
        rw [patchContainer] at h
        split at h
        · next hget => exact ⟨none, hget⟩
        · next items hget => exact ⟨some items, hget⟩
        · cases h
      refine ⟨members, env, rfl, henv, ?_⟩
      exact Except.ok.inj (h.symm.trans (patchContainer_object env henv))
  | _ => cases h

theorem patchContainers_eq_ok_iff :
    patchContainers id removals additions items = .ok items' ↔
      List.Forall₂ (fun c c' => patchContainer id removals additions c = .ok c') items items' := by
  induction items generalizing items' with
  | nil => simp [patchContainers, eq_comm]
  | cons c rest ih =>
      rw [patchContainers, Except.bind_eq_ok_iff, List.forall₂_cons_left_iff]
      refine exists_congr fun c' => ?_
      rw [Except.bind_eq_ok_iff, ← exists_and_left]
      refine exists_congr fun rest' => ?_
      rw [Except.pure_eq_ok_iff, ih, eq_comm (a := items')]

theorem step?_withEnv_self (h : env = none → Dict.get? members "env" = none) :
    (object (withEnv members env)).step? (.member "env") = env.map array := by
  cases env with
  | none => exact h rfl
  | some entries => exact step?_insert_self _

theorem step?_withEnv_of_ne (hs : s ≠ .member "env") :
    (object (withEnv members env)).step? s = (object members).step? s := by
  cases env with
  | none => rfl
  | some entries => exact step?_insert_of_ne _ hs

theorem step?_patchContainer (h : patchContainer id removals additions c = .ok c')
    (hs : s ≠ .member "env") : c'.step? s = c.step? s := by
  obtain ⟨members, env, rfl, -, rfl⟩ := exists_env_of_patchContainer h
  exact step?_withEnv_of_ne hs

section Related

variable {α β : Type} {R : α → β → Prop} {xs : List α} {ys : List β}

theorem rel_getElem?_of_forall₂ (h : List.Forall₂ R xs ys) (i : Nat) :
    Option.Rel R xs[i]? ys[i]? := by
  induction h generalizing i with
  | nil => exact .none
  | cons hR _ ih =>
      cases i with
      | zero => exact .some hR
      | succ i => exact ih i

theorem exists_mem_of_forall₂ (h : List.Forall₂ R xs ys) {y : β} (hy : y ∈ ys) :
    ∃ x ∈ xs, R x y := by
  induction h with
  | nil => cases hy
  | cons hR _ ih =>
      rcases List.mem_cons.mp hy with rfl | hy
      · exact ⟨_, List.mem_cons_self, hR⟩
      · obtain ⟨x, hx, hxy⟩ := ih hy
        exact ⟨x, List.mem_cons_of_mem _ hx, hxy⟩

end Related

end WorkloadPatch

end ResourceGraph
