import ResourceGraph.Document
import ResourceGraph.Proofs.Json.Canonical

namespace ResourceGraph.Document

open Json

/-- A rule that the parts of a value keep when the value does. -/
class Hereditary (rule : Json → Prop) : Prop where
  items : ∀ {items : List Json}, rule (.array items) → ∀ x ∈ items, rule x
  members : ∀ {members : List (String × Json)}, rule (.object members) → ∀ e ∈ members, rule e.2

instance : Hereditary Held where
  items h := (heldItems_iff _).1 h
  members h := (heldMembers_iff _).1 h

/-- JSON inside at least this many collections that keeps a rule. -/
inductive Within (rule : Json → Prop) (n : Nat) : Document → Prop where
  | json {depth : Nat} {value : Json} (hdepth : n ≤ depth) (hrule : rule value) :
      Within rule n (.json depth value)

namespace Within

theorem json? {n : Nat} {d : Document} {j : Json} (h : Within Held n d) (hn : 2 ≤ n)
    (hj : d.json? = some j) : j.Regular := by
  obtain ⟨hdepth, hheld⟩ := h
  rw [Document.json?] at hj
  split at hj
  · next hlimit =>
    obtain rfl := Option.some.inj hj
    have hvalue : jsonDepthLimit = 127 := rfl
    exact regular_canonical hheld (by omega)
  · exact nomatch hj

variable {α : Type} {rule : Json → Prop} {n : Nat} {d : Document} {read : Document → Option α}
  {P : α → Prop}

theorem items? [Hereditary rule] {items : List Document} (h : Within rule n d)
    (hitems : d.items? = some items) :
    ∀ x ∈ items, Within rule (n + 1) x := by
  obtain @⟨depth, value, hdepth, hrule⟩ := h
  cases value with
  | array xs =>
      rw [Document.items?] at hitems
      split at hitems
      · obtain rfl := Option.some.inj hitems
        intro x hx
        obtain ⟨v, hv, rfl⟩ := List.mem_map.1 hx
        exact .json (Nat.succ_le_succ hdepth) (Hereditary.items hrule v hv)
      · exact nomatch hitems
  | _ => exact nomatch hitems

theorem members? [Hereditary rule] {members : List (String × Document)} (h : Within rule n d)
    (hmembers : d.members? = some members) : ∀ e ∈ members, Within rule (n + 1) e.2 := by
  obtain @⟨depth, value, hdepth, hrule⟩ := h
  cases value with
  | object ms =>
      rw [Document.members?] at hmembers
      split at hmembers
      · obtain rfl := Option.some.inj hmembers
        intro e he
        obtain ⟨m, hm, rfl⟩ := List.mem_map.1 he
        exact .json (Nat.succ_le_succ hdepth) (Hereditary.members hrule m hm)
      · exact nomatch hmembers
  | _ => exact nomatch hmembers

theorem mem_of_mapM_eq_some {β : Type} {f : β → Option α} {xs : List β} {ys : List α}
    (h : xs.mapM f = some ys) : ∀ y ∈ ys, ∃ x ∈ xs, f x = some y := by
  induction xs generalizing ys with
  | nil =>
      obtain rfl := Option.some.inj h
      exact fun y hy => nomatch hy
  | cons x rest ih =>
      rw [List.mapM_cons] at h
      obtain ⟨y, hy, h⟩ := Option.bind_eq_some_iff.1 h
      obtain ⟨ys', hys', h⟩ := Option.bind_eq_some_iff.1 h
      obtain rfl := Option.some.inj h
      intro z hz
      rcases List.mem_cons.1 hz with rfl | hz
      · exact ⟨x, List.mem_cons_self, hy⟩
      · obtain ⟨x', hx', hz⟩ := ih hys' z hz
        exact ⟨x', List.mem_cons_of_mem x hx', hz⟩

theorem list? [Hereditary rule] {xs : List α} (h : Within rule n d) (hxs : d.list? read = some xs)
    (hread : ∀ d x, Within rule (n + 1) d → read d = some x → P x) : ∀ x ∈ xs, P x := by
  obtain ⟨items, hitems, hxs⟩ := Option.bind_eq_some_iff.1 hxs
  intro x hx
  obtain ⟨item, hitem, hx⟩ := mem_of_mapM_eq_some hxs x hx
  exact hread item x (h.items? hitems item hitem) hx

theorem dict? [Hereditary rule] {t : Dict α} (h : Within rule n d) (ht : d.dict? read = some t)
    (hread : ∀ d x, Within rule (n + 1) d → read d = some x → P x) :
    t.Sorted ∧ ∀ e ∈ t, P e.2 := by
  obtain ⟨members, hmembers, ht⟩ := Option.bind_eq_some_iff.1 ht
  obtain ⟨entries, hentries, ht⟩ := Option.bind_eq_some_iff.1 ht
  obtain rfl := Option.some.inj ht
  refine ⟨Dict.sorted_ofList entries, fun e he => ?_⟩
  obtain ⟨m, hm, he⟩ := mem_of_mapM_eq_some hentries e (Dict.mem_of_mem_ofList he)
  obtain ⟨v, hv, rfl⟩ := Option.map_eq_some_iff.1 he
  exact hread m.2 v (h.members? hmembers m hm) hv

theorem optional? {x : α} (h : Within rule n d) (hx : d.optional? read = some (some x)) :
    read d = some x := by
  obtain @⟨depth, value, hdepth, hrule⟩ := h
  cases value with
  | null => exact nomatch hx
  | _ =>
      obtain ⟨y, hy, hyx⟩ := Option.map_eq_some_iff.1 hx
      exact Option.some.inj hyx ▸ hy

theorem ne_null {j : Json} (h : Within rule n d) (hj : d.optional? Document.json? = some (some j)) :
    j ≠ .null := by
  have hread := h.optional? hj
  obtain @⟨depth, value, hdepth, hrule⟩ := h
  rw [Document.json?] at hread
  split at hread
  · obtain rfl := Option.some.inj hread
    cases value with
    | null => exact nomatch hj
    | _ => exact nofun
  · exact nomatch hread

theorem record? [Hereditary rule] {form : Form} {fields : Fields} (h : Within rule n d)
    (hfields : d.record? form = some fields) : ∀ e ∈ fields, Within rule (n + 1) e.2 := by
  obtain @⟨depth, value, hdepth, hrule⟩ := h
  cases value with
  | array xs =>
      rw [Document.record?] at hfields
      split at hfields
      · exact nomatch hfields
      · obtain rfl := Option.some.inj hfields
        intro e he
        obtain ⟨v, hv, hev⟩ := List.mem_map.1 (List.of_mem_zip he).2
        rw [← hev]
        exact .json (Nat.succ_le_succ hdepth) (Hereditary.items hrule v hv)
  | object ms =>
      obtain ⟨members, hmembers, hfields⟩ := Option.bind_eq_some_iff.1 hfields
      dsimp only at hfields
      split at hfields
      · obtain rfl := Option.some.inj hfields
        exact fun e he => (Within.json hdepth hrule).members? hmembers e (List.mem_of_mem_filter he)
      · exact nomatch hfields
  | _ => exact nomatch hfields

section Fields

variable {fields : Fields} {name : String} (h : ∀ e ∈ fields, Within rule n e.2)

include h

theorem field? (hd : fields.field? name = some d) : Within rule n d := by
  obtain ⟨e, he, rfl⟩ := Option.map_eq_some_iff.1 hd
  exact h e (List.mem_of_find?_eq_some he)

theorem required? {x : α} (hx : fields.required? name read = some x) :
    ∃ d, Within rule n d ∧ read d = some x := by
  obtain ⟨d, hd, hx⟩ := Option.bind_eq_some_iff.1 hx
  exact ⟨d, field? h hd, hx⟩

theorem withDefault? {x default : α} (hx : fields.withDefault? name default read = some x) :
    x = default ∨ ∃ d, Within rule n d ∧ read d = some x := by
  rw [Fields.withDefault?] at hx
  split at hx
  · next d hd => exact .inr ⟨d, field? h hd, hx⟩
  · exact .inl (Option.some.inj hx).symm

theorem optionalField? {x : α} (hx : fields.optional? name read = some (some x)) :
    ∃ d, Within rule n d ∧ d.optional? read = some (some x) := by
  rw [Fields.optional?] at hx
  split at hx
  · next d hd => exact ⟨d, field? h hd, hx⟩
  · exact nomatch hx

end Fields

end Within

end ResourceGraph.Document
