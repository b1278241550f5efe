import ResourceGraph.Document
import ResourceGraph.Proofs.Json.Canonical
import ResourceGraph.Proofs.Outcome
import ResourceGraph.Proofs.Yaml.JsonTree

namespace ResourceGraph.Document

open Yaml Json

section Values

theorem scalarValue?_number {n : Number} (h : n.Held) :
    Tree.scalarValue? none .plain (text (.number n)) = some (.number n) := by
  have hresolve : Plain.resolve n.json = _ := Plain.resolve_json
    (fun i hi => by rw [hi] at h; exact h) (fun d hd => by rw [hd] at h; exact h)
  rw [Tree.scalarValue?, Plain.ofScalar?, if_pos rfl, text, hresolve]
  cases n <;> rfl

mutual

theorem toJson?_tree (j : Json) (hheld : j.Held) {depth : Nat}
    (hdepth : depth + j.depth ≤ Tree.depthLimit) :
    Tree.toJson? .anyScalar depth j.tree = some j := by
  cases j with
  | null => rfl
  | bool b => cases b <;> rfl
  | number n => rw [tree, Tree.toJson?, scalarValue?_number hheld]; rfl
  | string s => rfl
  | array items =>
      rw [Json.depth] at hdepth
      have hopen : ¬(decide (Tree.depthLimit ≤ depth) || (Tree.localName? none).isSome) = true := by
        simp [Tree.localName?]
        omega
      rw [tree, Tree.toJson?, if_neg hopen, itemsJson?_trees items hheld (by omega)]
      rfl
  | object members =>
      rw [Json.depth] at hdepth
      have hopen : ¬(decide (Tree.depthLimit ≤ depth) || (Tree.localName? none).isSome) = true := by
        simp [Tree.localName?]
        omega
      rw [tree, Tree.toJson?, if_neg hopen, entriesJson?_trees members hheld (by omega)]
      rfl

theorem itemsJson?_trees (items : List Json) (hheld : HeldItems items) {depth : Nat}
    (hdepth : depth + depthItems items ≤ Tree.depthLimit) :
    Tree.itemsJson? .anyScalar depth (treesOfItems items) = some items := by
  match items with
  | [] => rfl
  | x :: rest =>
      rw [depthItems] at hdepth
      rw [treesOfItems, Tree.itemsJson?, toJson?_tree x hheld.1 (by omega),
        itemsJson?_trees rest hheld.2 (by omega)]
      rfl

theorem entriesJson?_trees (members : List (String × Json)) (hheld : HeldMembers members)
    {depth : Nat} (hdepth : depth + depthMembers members ≤ Tree.depthLimit) :
    Tree.entriesJson? .anyScalar depth (treesOfMembers members) = some members := by
  match members with
  | [] => rfl
  | (k, x) :: rest =>
      rw [depthMembers] at hdepth
      rw [treesOfMembers, Tree.entriesJson?, toJson?_tree x hheld.1 (by omega),
        entriesJson?_trees rest hheld.2 (by omega)]
      rfl

end

theorem json?_tree {j : Json} (h : j.Regular) {depth : Nat} (hdepth : depth ≤ 3) :
    json? (.yaml depth j.tree) = some j := by
  have hlimit : depth + j.depth ≤ Tree.depthLimit := by
    have hj := h.depth_le
    have hvalue : Tree.depthLimit = 128 := rfl
    omega
  rw [json?, toJson?_tree j h.held hlimit, Option.map_some, h.canonical]

theorem optional?_json?_tree {j : Json} (h : j.Regular) (hnull : j ≠ .null) {depth : Nat}
    (hdepth : depth ≤ 3) : optional? json? (.yaml depth j.tree) = some (some j) := by
  have hread := json?_tree h hdepth
  cases j with
  | null => exact absurd rfl hnull
  | bool b => cases b <;> rfl
  | number n =>
      have hpresent : ((text (.number n)).isEmpty || Plain.isNull (text (.number n))) = false := by
        refine Bool.eq_false_iff.2 fun habsent => ?_
        have hvalue := scalarValue?_number h.held
        rw [Tree.scalarValue?, Plain.ofScalar?, if_pos rfl, Plain.resolve, if_pos habsent] at hvalue
        simp at hvalue
      rw [tree, optional?, hpresent, if_neg Bool.false_ne_true, ← tree, hread]
      rfl
  | string s => exact congrArg (Option.map some) hread
  | array items => exact congrArg (Option.map some) hread
  | object members => exact congrArg (Option.map some) hread

end Values

section Collections

variable {α : Type} {read : Document → Option α} {write : α → Json} {depth : Nat}

theorem list?_of_items? {d : Document} {xs : List α} {place : α → Document}
    (hitems : d.items? = some (xs.map place)) (h : ∀ x ∈ xs, read (place x) = some x) :
    list? read d = some xs := by
  rw [list?, hitems]
  apply List.mapM_eq_pure
  rw [List.map_map]
  exact List.map_congr_left h

theorem mapM_place {entries : List (String × α)} {place : String × α → Document}
    (h : ∀ e ∈ entries, read (place e) = some e.2) :
    (entries.map fun e => (e.1, place e)).mapM (fun e => (read e.2).map fun v => (e.1, v)) =
      some entries := by
  apply List.mapM_eq_pure
  rw [List.map_map]
  refine List.map_congr_left fun e he => ?_
  exact congrArg (Option.map (Prod.mk e.1)) (h e he)

theorem dict?_of_members? {d : Document} {t : Dict α} {place : String × α → Document}
    (hsorted : t.Sorted) (hmembers : d.members? = some (t.map fun e => (e.1, place e)))
    (h : ∀ e ∈ t, read (place e) = some e.2) : dict? read d = some t := by
  rw [dict?, hmembers]
  simp only [Option.bind_eq_bind, Option.bind_some, mapM_place h]
  rw [Option.pure_def, Dict.ofList_of_sorted hsorted]

theorem list?_json (hdepth : depth < jsonDepthLimit) {xs : List α}
    (h : ∀ x ∈ xs, read (.json (depth + 1) (write x)) = some x) :
    list? read (.json depth (.array (xs.map write))) = some xs := by
  refine list?_of_items? ?_ h
  rw [items?, if_pos hdepth, List.map_map]
  rfl

theorem dict?_json (hdepth : depth < jsonDepthLimit) {t : Dict α} (hsorted : t.Sorted)
    (h : ∀ e ∈ t, read (.json (depth + 1) (write e.2)) = some e.2) :
    dict? read (.json depth (.object (t.mapValues write))) = some t := by
  refine dict?_of_members? hsorted ?_ h
  rw [members?, if_pos hdepth, Dict.mapValues, List.map_map]
  rfl

theorem treesOfItems_eq_map (items : List Json) : treesOfItems items = items.map tree := by
  induction items with
  | nil => rfl
  | cons x rest ih => rw [treesOfItems, ih, List.map_cons]

theorem treesOfMembers_eq_map (members : List (String × Json)) :
    treesOfMembers members = members.map fun e => (Tree.scalar none .quoted e.1, e.2.tree) := by
  induction members with
  | nil => rfl
  | cons e rest ih => rw [treesOfMembers, ih, List.map_cons]

theorem members?_tree (hdepth : depth < Tree.depthLimit) (members : List (String × Json)) :
    members? (.yaml depth (tree (.object members))) =
      some (members.map fun e => (e.1, .yaml (depth + 1) e.2.tree)) := by
  rw [tree, members?, if_pos hdepth, treesOfMembers_eq_map]
  induction members with
  | nil => rfl
  | cons e rest ih =>
      rw [List.map_cons, List.mapM_cons, ih]
      rfl

theorem list?_tree (hdepth : depth < Tree.depthLimit) {xs : List α}
    (h : ∀ x ∈ xs, read (.yaml (depth + 1) (write x).tree) = some x) :
    list? read (.yaml depth (tree (.array (xs.map write)))) = some xs := by
  refine list?_of_items? ?_ h
  rw [tree, items?, if_pos hdepth, treesOfItems_eq_map, List.map_map, List.map_map]
  rfl

theorem dict?_tree (hdepth : depth < Tree.depthLimit) {d : Dict α} (hsorted : d.Sorted)
    (h : ∀ e ∈ d, read (.yaml (depth + 1) (write e.2).tree) = some e.2) :
    dict? read (.yaml depth (tree (.object (d.mapValues write)))) = some d := by
  refine dict?_of_members? hsorted ?_ h
  rw [members?_tree hdepth, Dict.mapValues, List.map_map]
  rfl

end Collections

section Records

variable {α : Type} {depth : Nat} {name : String} {place : Json → Document}

/-- The fields of a record, absent ones included. -/
abbrev Slots := List (String × Option Json)

/-- The tree that a written value turns into, inside some collections. -/
abbrev treeAt (depth : Nat) (j : Json) : Document := .yaml depth j.tree

namespace Slots

def json (s : Slots) : Json := .object (s.filterMap fun e => e.2.map fun v => (e.1, v))

def fields (s : Slots) (place : Json → Document) : Fields :=
  s.filterMap fun e => e.2.map fun v => (e.1, place v)

theorem mem_fields {s : Slots} {e : String × Document} (h : e ∈ s.fields place) :
    e.1 ∈ s.map Prod.fst := by
  obtain ⟨slot, hslot, hvalue⟩ := List.mem_filterMap.1 h
  obtain ⟨v, -, rfl⟩ := Option.map_eq_some_iff.1 hvalue
  exact List.mem_map_of_mem hslot

theorem distinct_fields {s : Slots} (h : (s.map Prod.fst).Nodup) :
    distinct (s.fields place) = true := by
  induction s with
  | nil => rfl
  | cons e rest ih =>
      obtain ⟨k, value⟩ := e
      rw [List.map_cons, List.nodup_cons] at h
      cases value with
      | none => exact ih h.2
      | some v =>
          have hfresh : (fields rest place).any (fun e => e.1 == k) = false := by
            rw [List.any_eq_false]
            intro e he heq
            exact h.1 (beq_iff_eq.1 heq ▸ mem_fields he)
          have hrest := ih h.2
          change (!(fields rest place).any (fun e => e.1 == k) && distinct (fields rest place)) = _
          rw [hfresh, hrest]
          rfl

theorem field?_fields {s : Slots} (h : (s.map Prod.fst).Nodup) {value : Option Json}
    (hmem : (name, value) ∈ s) :
    (s.fields place).field? name = value.map place := by
  induction s with
  | nil => exact nomatch hmem
  | cons e rest ih =>
      obtain ⟨k, v⟩ := e
      rw [List.map_cons, List.nodup_cons] at h
      rcases List.mem_cons.1 hmem with heq | hmem
      · obtain ⟨rfl, rfl⟩ := Prod.mk.inj heq
        cases value with
        | some v => simp [fields, Fields.field?]
        | none =>
            have hnone : (fields rest place).find? (fun e => e.1 == name) = none := by
              rw [List.find?_eq_none]
              intro e he heq
              exact h.1 (beq_iff_eq.1 heq ▸ mem_fields he)
            change ((fields rest place).find? fun e => e.1 == name).map Prod.snd = none
            rw [hnone]
            rfl
      · have hne : (k == name) = false := by
          refine beq_eq_false_iff_ne.2 fun heq => h.1 ?_
          exact List.mem_map.2 ⟨_, hmem, heq.symm⟩
        rw [← ih h.2 hmem]
        cases v with
        | none => rfl
        | some v => simp [fields, Fields.field?, hne]

section Reading

variable {s : Slots} (h : (s.map Prod.fst).Nodup) {read : Document → Option α} {x : α}

include h

theorem required?_fields {j : Json} (hmem : (name, some j) ∈ s)
    (hread : read (place j) = some x) :
    (s.fields place).required? name read = some x := by
  rw [Fields.required?, field?_fields h hmem]
  exact hread

theorem withDefault?_fields {value : Option Json} {default : α} (hmem : (name, value) ∈ s)
    (hnone : value = none → default = x)
    (hread : ∀ j, value = some j → read (place j) = some x) :
    (s.fields place).withDefault? name default read = some x := by
  rw [Fields.withDefault?, field?_fields h hmem]
  cases value with
  | none => exact congrArg some (hnone rfl)
  | some j => exact hread j rfl

theorem optional?_fields {value : Option α} {write : α → Json}
    (hmem : (name, value.map write) ∈ s)
    (hread : ∀ y, value = some y → optional? read (place (write y)) = some (some y)) :
    (s.fields place).optional? name read = some value := by
  rw [Fields.optional?, field?_fields h hmem]
  cases value with
  | none => rfl
  | some y => exact hread y rfl

end Reading

theorem record?_of_members? {form : Form} {d : Document} {s : Slots}
    (hobject : record? form d = d.members?.bind fun es =>
      if distinct (es.filter fun e => form.names.contains e.1) then
        some (es.filter fun e => form.names.contains e.1)
      else none)
    (hmembers : d.members? = some (s.fields place)) (hnames : s.map Prod.fst = form.names)
    (hnodup : form.names.Nodup) : record? form d = some (s.fields place) := by
  have hfilter : (s.fields place).filter (fun e => form.names.contains e.1) = s.fields place := by
    refine List.filter_eq_self.2 fun e he => List.contains_iff_mem.2 ?_
    exact hnames ▸ mem_fields he
  have hdistinct : distinct (s.fields place) = true := distinct_fields (hnames ▸ hnodup)
  rw [hobject, hmembers, Option.bind_some, hfilter, if_pos hdistinct]

theorem record?_tree {form : Form} (hdepth : depth < Tree.depthLimit) {s : Slots}
    (hnames : s.map Prod.fst = form.names) (hnodup : form.names.Nodup) :
    record? form (.yaml depth s.json.tree) = some (s.fields (treeAt (depth + 1))) := by
  apply record?_of_members? rfl _ hnames hnodup
  rw [json, members?_tree hdepth, List.map_filterMap]
  refine congrArg some (List.filterMap_congr ?_)
  rintro ⟨k, _ | v⟩ - <;> rfl

theorem record?_json {form : Form} (hdepth : depth < jsonDepthLimit) {s : Slots}
    (hnames : s.map Prod.fst = form.names) (hnodup : form.names.Nodup) :
    record? form (.json depth s.json) = some (s.fields (.json (depth + 1))) := by
  apply record?_of_members? rfl _ hnames hnodup
  rw [json, members?, if_pos hdepth, List.map_filterMap]
  refine congrArg some (List.filterMap_congr ?_)
  rintro ⟨k, _ | v⟩ - <;> rfl

theorem json_eq_record (s : Slots) : s.json = record (s.map fun e => fieldOf e.1 e.2 fun v => v) := by
  rw [record, List.filterMap_map]
  rfl

theorem depth_json_le {s : Slots} {n : Nat} (h : ∀ k v, (k, some v) ∈ s → v.depth ≤ n) :
    s.json.depth ≤ n + 1 := by
  rw [json, depth]
  refine Nat.succ_le_succ ((depthMembers_le_iff _ n).2 fun e he => ?_)
  obtain ⟨⟨k, value⟩, hmem, hvalue⟩ := List.mem_filterMap.1 he
  obtain ⟨v, rfl, rfl⟩ := Option.map_eq_some_iff.1 hvalue
  exact h k v hmem

theorem covers_json {s : Slots} {form : Form} (hform : form ≠ .ignored)
    (h : ∀ k v, (k, some v) ∈ s → Covers (form.member k) v) : Covers form s.json := by
  rw [json]
  refine ⟨hform, (coversMembers_iff _).2 fun e he => ?_⟩
  obtain ⟨⟨k, value⟩, hmem, hvalue⟩ := List.mem_filterMap.1 he
  obtain ⟨v, rfl, rfl⟩ := Option.map_eq_some_iff.1 hvalue
  exact h k v hmem

theorem covers_json_of_whole {s : Slots} {form : Form} (hform : form ≠ .ignored)
    (hnames : s.map Prod.fst = form.names) (hwhole : ∀ e ∈ form.fields, e.2 = .whole) :
    Covers form s.json := by
  refine covers_json hform fun k v hmem => ?_
  rw [Form.member_eq_whole hwhole (hnames ▸ List.mem_map_of_mem hmem)]
  exact (covers_whole v).1

theorem mapTexts_json (f : String → String) (s : Slots) :
    s.json.mapTexts f = json (s.map fun e => (e.1, e.2.map (mapTexts f))) := by
  rw [json, mapTexts, mapMembers_eq_map, List.map_filterMap, json, List.filterMap_map]
  refine congrArg object (List.filterMap_congr ?_)
  rintro ⟨k, _ | v⟩ - <;> rfl

end Slots

theorem optional?_array {read : Document → Option α} (items : List Json) :
    optional? read (.yaml depth (tree (.array items))) =
      (read (.yaml depth (tree (.array items)))).map some := rfl

theorem optional?_object {read : Document → Option α} (members : List (String × Json)) :
    optional? read (.yaml depth (tree (.object members))) =
      (read (.yaml depth (tree (.object members)))).map some := rfl

end Records

end ResourceGraph.Document
