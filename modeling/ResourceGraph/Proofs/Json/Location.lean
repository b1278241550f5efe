import Mathlib.Data.List.Infix
import ResourceGraph.Json.Value
import ResourceGraph.Proofs.Dict

/-!
Locations in a document: the members and items that lead to a value. Two documents agree apart from
a location when they hold the same wherever neither of two locations leads to the other.
-/

namespace ResourceGraph.Json

/-- From a container to a value directly below it. -/
inductive Step where
  | member (name : String)
  | item (index : Nat)
  deriving DecidableEq, Repr

abbrev Location := List Step

def step? : Step → Json → Option Json
  | .member name, .object members => Dict.get? members name
  | .item i, .array items => items[i]?
  | _, _ => none

def value? : Location → Json → Option Json
  | [], x => some x
  | s :: rest, x => (x.step? s).bind (value? rest)

namespace Location

def ofNames (names : List String) : Location := names.map .member

/-- Neither location leads to the other. -/
def Apart (a b : Location) : Prop := ¬a <+: b ∧ ¬b <+: a

theorem Apart.symm {a b : Location} (h : a.Apart b) : b.Apart a := ⟨h.2, h.1⟩

theorem not_apart_nil (b : Location) : ¬Apart [] b := fun h => h.1 b.nil_prefix

theorem apart_cons_iff {s t : Step} {a b : Location} :
    Apart (s :: a) (t :: b) ↔ s ≠ t ∨ a.Apart b := by
  unfold Apart
  rw [List.cons_prefix_cons, List.cons_prefix_cons]
  by_cases h : s = t
  · simp [h]
  · simp [h, Ne.symm h]

theorem Apart.exists_cons {a b : Location} (h : a.Apart b) : ∃ t rest, b = t :: rest := by
  cases b with
  | nil => exact absurd a.nil_prefix h.2
  | cons t rest => exact ⟨t, rest, rfl⟩

end Location

section Steps

variable {members : List (String × Json)} {items : List Json} {name : String} {i : Nat} {s : Step}

theorem value?_append (a b : Location) (x : Json) :
    x.value? (a ++ b) = (x.value? a).bind (value? b) := by
  induction a generalizing x with
  | nil => rfl
  | cons s rest ih =>
      rw [List.cons_append, value?, value?, Option.bind_assoc]
      exact congrArg _ (funext ih)

@[simp] theorem value?_cons (s : Step) (rest : Location) (x : Json) :
    x.value? (s :: rest) = (x.step? s).bind (value? rest) := rfl

@[simp] theorem step?_empty (s : Step) : (object []).step? s = none := by
  cases s <;> rfl

@[simp] theorem step?_insert_self (value : Json) :
    (object (Dict.insert members name value)).step? (.member name) = some value :=
  Dict.get?_insert_self members name value

theorem step?_insert_of_ne (value : Json) (h : s ≠ .member name) :
    (object (Dict.insert members name value)).step? s = (object members).step? s := by
  cases s with
  | member k => exact Dict.get?_insert_of_ne members value fun hk => h (congrArg Step.member hk)
  | item k => rfl

theorem step?_set_self (value : Json) (h : i < items.length) :
    (array (items.set i value)).step? (.item i) = some value :=
  List.getElem?_set_self h

theorem step?_set_of_ne (value : Json) (h : s ≠ .item i) :
    (array (items.set i value)).step? s = (array items).step? s := by
  cases s with
  | member k => rfl
  | item k => exact List.getElem?_set_ne fun hk => h (congrArg Step.item hk.symm)

end Steps

section Agreement

variable {doc out : Json} {a : Location} {s : Step}

/-- A document holds what another one does wherever this location neither leads nor is led to. -/
def AgreesApart (a : Location) (doc out : Json) : Prop :=
  ∀ b, a.Apart b → out.value? b = doc.value? b

theorem agreesApart_nil (doc out : Json) : AgreesApart [] doc out :=
  fun b h => absurd h (Location.not_apart_nil b)

theorem agreesApart_refl (a : Location) (doc : Json) : AgreesApart a doc doc := fun _ _ => rfl

theorem AgreesApart.cons (hothers : ∀ t, t ≠ s → out.step? t = doc.step? t)
    (hbelow : ∀ b, a.Apart b → (out.step? s).bind (value? b) = (doc.step? s).bind (value? b)) :
    AgreesApart (s :: a) doc out := by
  intro b hb
  obtain ⟨t, rest, rfl⟩ := hb.exists_cons
  rw [value?_cons, value?_cons]
  by_cases ht : t = s
  · subst ht
    exact hbelow rest ((Location.apart_cons_iff.mp hb).resolve_left (· rfl))
  · rw [hothers t ht]

theorem AgreesApart.below {x y : Json} (h : AgreesApart a x y)
    (hothers : ∀ t, t ≠ s → out.step? t = doc.step? t) (hx : doc.step? s = some x)
    (hy : out.step? s = some y) : AgreesApart (s :: a) doc out := by
  apply AgreesApart.cons hothers
  intro b hb
  rw [hx, hy]
  exact h b hb

theorem agreesApart_singleton (hothers : ∀ t, t ≠ s → out.step? t = doc.step? t) :
    AgreesApart [s] doc out :=
  AgreesApart.cons hothers fun b hb => absurd hb (Location.not_apart_nil b)

end Agreement

end ResourceGraph.Json
