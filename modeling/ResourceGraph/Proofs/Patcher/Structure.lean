import ResourceGraph.Proofs.Patcher.Tables

namespace ResourceGraph

open Json WorkloadPatch

namespace WorkloadPatch

variable {attributes out : Dict Json} {id : String} {environment : Option (List Variable)}

theorem amend_eq_some_iff {said old : Option String} {s : String} :
    amend said old = some s ↔
      said = some s ∧ s ≠ removalValue ∨ said = none ∧ old = some s := by
  cases said with
  | none => simp [amend]
  | some s' =>
      rw [amend]
      by_cases h : s' = removalValue
      · simp only [if_pos h, Option.some.injEq, reduceCtorEq, false_and, or_false, false_iff]
        rintro ⟨rfl, hs⟩
        exact hs h
      · simp only [if_neg h, Option.some.injEq, reduceCtorEq, false_and, or_false]
        exact ⟨fun hs => ⟨hs, hs ▸ h⟩, And.left⟩

theorem amend_amend (last said old : Option String) :
    amend last (amend said old) = amend (last.or said) old := by
  cases last <;> rfl

/-- What the last of these patchers that mentions a key of a table says about it. -/
def Table.lastSaid? (t : Table) (patchers : List Patcher) (k : String) : Option String :=
  patchers.reverse.findSome? fun p => t.said? p k

section LastSaid

variable {t : Table} {patchers : List Patcher} {k s : String}

theorem Table.lastSaid?_cons (t : Table) (p : Patcher) (patchers : List Patcher) (k : String) :
    t.lastSaid? (p :: patchers) k = (t.lastSaid? patchers k).or (t.said? p k) := by
  rw [lastSaid?, List.reverse_cons, List.findSome?_append, List.findSome?_singleton, lastSaid?]

theorem Table.lastSaid?_eq_none_iff :
    t.lastSaid? patchers k = none ↔ ∀ p ∈ patchers, t.said? p k = none := by
  rw [lastSaid?, List.findSome?_eq_none_iff]
  exact forall_congr' fun p => by rw [List.mem_reverse]

theorem Table.lastSaid?_eq_some_iff :
    t.lastSaid? patchers k = some s ↔
      ∃ earlier p later, patchers = earlier ++ p :: later ∧ t.said? p k = some s ∧
        ∀ q ∈ later, t.said? q k = none := by
  rw [lastSaid?, List.findSome?_eq_some_iff]
  constructor
  · rintro ⟨later, p, earlier, hsplit, hp, hlater⟩
    refine ⟨earlier.reverse, p, later.reverse, ?_, hp,
      fun q hq => hlater q (List.mem_reverse.mp hq)⟩
    rw [← List.reverse_reverse patchers, hsplit]
    simp
  · rintro ⟨earlier, p, later, rfl, hp, hlater⟩
    exact ⟨later.reverse, p, earlier.reverse, by simp, hp,
      fun q hq => hlater q (List.mem_reverse.mp hq)⟩

end LastSaid

theorem nested?_normalizeMembers {path : List String} (hpath : path ≠ []) :
    nested? path (normalizeMembers attributes) = (nested? path attributes).map normalize := by
  rw [nested?_eq_value? hpath, nested?_eq_value? hpath]
  exact value?_normalize (.ofNames path) (.object attributes)

theorem text?_normalizeMembers {path : List String} (hpath : path ≠ []) (k : String) :
    text? path k (normalizeMembers attributes) = text? path k attributes := by
  rw [text?, text?, nested?_normalizeMembers hpath]
  cases nested? path attributes with
  | none => rfl
  | some x =>
      cases x with
      | object members =>
          change (Dict.get? (normalizeMembers members) k).bind asString? =
            (Dict.get? members k).bind asString?
          rw [normalizeMembers_eq_mapValues, Dict.get?_mapValues]
          cases Dict.get? members k with
          | none => rfl
          | some v => exact asString?_normalize v
      | _ => rfl

theorem agreesApart_of_patchVariables (h : patchVariables id environment attributes = .ok out) :
    AgreesApart (.ofNames containers) (.object attributes) (.object out) := by
  rcases put_of_patchVariables h with rfl | ⟨-, removals, additions, items, items', -, -, hput⟩
  · exact agreesApart_refl _ _
  · exact hput.agreesApart

theorem Table.apart_containers (t : Table) : Location.Apart (.ofNames containers) t.location := by
  cases t <;> (constructor <;> decide)

end WorkloadPatch

namespace Patcher

variable {p : Patcher} {w w' : Resource}

theorem patchStructure_eq_ok_iff :
    p.patchStructure w = .ok w' ↔
      ∃ tables attributes, patchTables p (normalizeMembers w.attributes) = .ok tables ∧
        patchVariables w.id p.environment tables = .ok attributes ∧ { w with attributes } = w' := by
  rw [patchStructure, Except.bind_eq_ok_iff]
  refine exists_congr fun tables => ?_
  rw [Except.mapError_eq_ok_iff, Except.bind_eq_ok_iff, ← exists_and_left]
  refine exists_congr fun attributes => ?_
  rw [Except.mapError_eq_ok_iff, Except.pure_eq_ok_iff]

theorem text?_of_patchStructure (h : p.patchStructure w = .ok w')
    (hsorted : ∀ (t : Table) patch, t.patch? p = some patch → patch.Sorted) (t : Table) (k : String) :
    text? t.path k w'.attributes = amend (t.said? p k) (text? t.path k w.attributes) := by
  obtain ⟨tables, attributes, htables, hvariables, rfl⟩ := patchStructure_eq_ok_iff.mp h
  rw [patchTables_eq_foldlM] at htables
  have hkept : nested? t.path attributes = nested? t.path tables :=
    Table.nested?_of_agreesApart (agreesApart_of_patchVariables hvariables) t.apart_containers
  calc text? t.path k attributes
    _ = text? t.path k tables := by rw [text?, hkept, text?]
    _ = amend (t.said? p k) (text? t.path k (normalizeMembers w.attributes)) := by
      rw [Table.text?_of_foldlM Table.nodup_all hsorted htables, if_pos t.mem_all]
    _ = amend (t.said? p k) (text? t.path k w.attributes) := by
      rw [text?_normalizeMembers t.path_ne_nil]

/-- A patcher that only removes from a table that is absent leaves it absent, and does all in all
what it does when it says nothing about the table. -/
theorem patchStructure_of_onlyRemoves {t : Table} (h : p.patchStructure w = .ok w')
    (hp : t.OnlyRemoves p) (habsent : nested? t.path w.attributes = none) :
    nested? t.path w'.attributes = none ∧ (t.dropFrom p).patchStructure w = .ok w' := by
  obtain ⟨tables, attributes, htables, hvariables, rfl⟩ := patchStructure_eq_ok_iff.mp h
  rw [patchTables_eq_foldlM] at htables
  have hnormal : nested? t.path (normalizeMembers w.attributes) = none := by
    rw [nested?_normalizeMembers t.path_ne_nil, habsent, Option.map_none]
  obtain ⟨hstays, hwithout⟩ := Table.nested?_of_foldlM hp hnormal htables
  constructor
  · rw [← hstays]
    exact Table.nested?_of_agreesApart (agreesApart_of_patchVariables hvariables) t.apart_containers
  · rw [patchStructure_eq_ok_iff]
    refine ⟨tables, attributes, ?_, ?_, rfl⟩
    · rw [patchTables_eq_foldlM, hwithout]
    · rw [Table.environment_dropFrom, hvariables]

section Runs

variable {patchers : List Patcher}

theorem text?_of_foldlM_patchStructure
    (hsorted : ∀ p ∈ patchers, ∀ (t : Table) patch, t.patch? p = some patch → patch.Sorted)
    (hrun : patchers.foldlM (fun w p => p.patchStructure w) w = .ok w') (t : Table) (k : String) :
    text? t.path k w'.attributes = amend (t.lastSaid? patchers k) (text? t.path k w.attributes) := by
  induction patchers generalizing w with
  | nil =>
      obtain rfl := Except.ok.inj hrun
      rfl
  | cons p rest ih =>
      obtain ⟨u, hu, hrest⟩ := Except.bind_eq_ok_iff.mp hrun
      rw [ih (fun q hq => hsorted q (List.mem_cons_of_mem p hq)) hrest,
        text?_of_patchStructure hu (hsorted p List.mem_cons_self), amend_amend, Table.lastSaid?_cons]

/-- After patchers that a workload takes one after the other, a key of a table has the text that the
last patcher which mentions it gives it, unless that patcher removes it, and its own text where none
mentions it. At each call, a table that is absent and from which the patcher only removes stays
absent, and nothing is created for it. -/
theorem foldlM_patchStructure
    (hsorted : ∀ p ∈ patchers, ∀ (t : Table) patch, t.patch? p = some patch → patch.Sorted)
    (hrun : patchers.foldlM (fun w p => p.patchStructure w) w = .ok w') :
    (∀ (t : Table) (k s : String), text? t.path k w'.attributes = some s ↔
      (∃ earlier p later, patchers = earlier ++ p :: later ∧ t.said? p k = some s ∧
        (∀ q ∈ later, t.said? q k = none) ∧ s ≠ removalValue) ∨
      (∀ p ∈ patchers, t.said? p k = none) ∧ text? t.path k w.attributes = some s) ∧
    ∀ earlier p later, patchers = earlier ++ p :: later →
      ∃ u u', earlier.foldlM (fun w p => p.patchStructure w) w = .ok u ∧ p.patchStructure u = .ok u' ∧
        ∀ t : Table, t.OnlyRemoves p → nested? t.path u.attributes = none →
          nested? t.path u'.attributes = none ∧ (t.dropFrom p).patchStructure u = .ok u' := by
  constructor
  · intro t k s
    rw [text?_of_foldlM_patchStructure hsorted hrun, amend_eq_some_iff, Table.lastSaid?_eq_some_iff,
      Table.lastSaid?_eq_none_iff]
    simp only [← exists_and_right, and_assoc]
  · rintro earlier p later rfl
    rw [List.foldlM_append] at hrun
    obtain ⟨u, hu, hrest⟩ := Except.bind_eq_ok_iff.mp hrun
    obtain ⟨u', hu', -⟩ := Except.bind_eq_ok_iff.mp hrest
    exact ⟨u, u', hu, hu', fun t hp habsent => patchStructure_of_onlyRemoves hu' hp habsent⟩

end Runs

def labelled : Resource :=
  .new "api" .kubernetes
    [("metadata", .object [("labels", .object [("app", .string "api"), ("tier", .string "web")])])]

def relabelling : Patcher :=
  { labels := some [("app", removalValue), ("team", "a")], podLabels := some [("old", removalValue)],
    annotations := none, podAnnotations := none, environment := none, attributePatches := none }

def reassigning : Patcher :=
  { labels := some [("team", "b")], podLabels := none, annotations := none, podAnnotations := none,
    environment := none, attributePatches := none }

def assignedTo (team : String) : Resource :=
  .new "api" .kubernetes
    [("metadata", .object [("labels", .object [("team", .string team), ("tier", .string "web")])])]

theorem foldlM_patchStructure_of_two :
    [relabelling, reassigning].foldlM (fun w p => p.patchStructure w) labelled = .ok (assignedTo "b") ∧
      text? Table.labels.path "team" (assignedTo "b").attributes = some "b" ∧
      text? Table.labels.path "tier" (assignedTo "b").attributes = some "web" ∧
      text? Table.labels.path "app" (assignedTo "b").attributes ≠ some "api" ∧
      ∃ w', relabelling.patchStructure labelled = .ok w' ∧
        nested? Table.podLabels.path w'.attributes = none ∧
        (Table.podLabels.dropFrom relabelling).patchStructure labelled = .ok w' := by
  have hfirst : relabelling.patchStructure labelled = .ok (assignedTo "a") := by
    simp only [patchStructure, patchTables, patchTable?, relabelling, patchTable,
      WorkloadPatch.labels, WorkloadPatch.podLabels, nested?, putNested]
    rfl
  have hsecond : reassigning.patchStructure (assignedTo "a") = .ok (assignedTo "b") := by
    simp only [patchStructure, patchTables, patchTable?, reassigning, patchTable,
      WorkloadPatch.labels, nested?, putNested]
    rfl
  have hrun : [relabelling, reassigning].foldlM (fun w p => p.patchStructure w) labelled =
      .ok (assignedTo "b") := by
    refine Except.bind_eq_ok_iff.mpr ⟨assignedTo "a", hfirst, ?_⟩
    exact Except.bind_eq_ok_iff.mpr ⟨assignedTo "b", hsecond, rfl⟩
  have hsorted : ∀ p ∈ [relabelling, reassigning], ∀ t ∈ Table.all, ∀ patch ∈ (t.patch? p).toList,
      patch.Pairwise fun a b => a.1 < b.1 := by decide +kernel
  have htier : text? Table.labels.path "tier" labelled.attributes = some "web" := by
    simp only [text?, Table.path, WorkloadPatch.labels, nested?]
    rfl
  have honly : Table.podLabels.OnlyRemoves relabelling := by
    rintro patch ⟨rfl⟩ e he
    rw [List.mem_singleton.mp he]
  have habsent : nested? Table.podLabels.path labelled.attributes = none := by
    simp only [Table.path, WorkloadPatch.podLabels, nested?]
    rfl
  obtain ⟨htexts, hcalls⟩ := foldlM_patchStructure
    (fun p hp t patch hpatch => hsorted p hp t t.mem_all patch (Option.mem_toList.mpr hpatch)) hrun
  refine ⟨hrun, ?_, ?_, ?_, ?_⟩
  · exact (htexts .labels "team" "b").mpr
      (.inl ⟨[relabelling], reassigning, [], rfl, by decide, List.forall_mem_nil _, by decide⟩)
  · exact (htexts .labels "tier" "web").mpr (.inr ⟨by decide, htier⟩)
  · intro happ
    have hnever : ∀ p ∈ [relabelling, reassigning], Table.labels.said? p "app" ≠ some "api" := by
      decide
    rcases (htexts .labels "app" "api").mp happ with ⟨earlier, p, later, hsplit, hsaid, -⟩ | h
    · exact hnever p (hsplit ▸ List.mem_append_right earlier List.mem_cons_self) hsaid
    · exact absurd (h.1 relabelling List.mem_cons_self) (by decide)
  · obtain ⟨u, w', hu, hw', hkeeps⟩ := hcalls [] relabelling [reassigning] rfl
    obtain rfl := Except.ok.inj hu
    exact ⟨w', hw', hkeeps .podLabels honly habsent⟩

end Patcher

end ResourceGraph
