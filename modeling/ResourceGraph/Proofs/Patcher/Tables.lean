import ResourceGraph.Proofs.Patcher.Nested

namespace ResourceGraph

namespace WorkloadPatch

open Json

/-- The tables of texts of a workload that patchers change. -/
inductive Table where
  | labels
  | podLabels
  | annotations
  | podAnnotations
  deriving DecidableEq, Repr

namespace Table

def path : Table → List String
  | .labels => WorkloadPatch.labels
  | .podLabels => WorkloadPatch.podLabels
  | .annotations => WorkloadPatch.annotations
  | .podAnnotations => WorkloadPatch.podAnnotations

def patch? : Table → Patcher → Option (Dict String)
  | .labels, p => p.labels
  | .podLabels, p => p.podLabels
  | .annotations, p => p.annotations
  | .podAnnotations, p => p.podAnnotations

/-- A patcher that says nothing about a table. -/
def dropFrom : Table → Patcher → Patcher
  | .labels, p => { p with labels := none }
  | .podLabels, p => { p with podLabels := none }
  | .annotations, p => { p with annotations := none }
  | .podAnnotations, p => { p with podAnnotations := none }

def all : List Table := [.labels, .podLabels, .annotations, .podAnnotations]

def location (t : Table) : Location := .ofNames t.path

end Table

def entriesOf : Option Json → Dict Json
  | some (.object members) => members
  | _ => []

def text? (path : List String) (k : String) (attributes : Dict Json) : Option String :=
  ((entriesOf (nested? path attributes)).get? k).bind asString?

/-- The text of a key after a patch that says something about it, or nothing. -/
def amend : Option String → Option String → Option String
  | none, old => old
  | some s, _ => if s = removalValue then none else some s

section OneTable

variable {path q : List String} {patch : Dict String} {attributes out entries members : Dict Json}
  {k : String}

theorem eq_of_stringEntries (h : stringEntries path members = .ok entries) : entries = members := by
  induction members generalizing entries with
  | nil => exact (Except.ok.inj h).symm
  | cons e rest ih =>
      obtain ⟨k, v⟩ := e
      unfold stringEntries at h
      split at h
      · obtain ⟨entries', hrest, rfl⟩ := Except.map_eq_ok_iff.mp h
        rw [ih hrest]
      · cases h

theorem get?_mergeEntries (hpatch : patch.Sorted) :
    (mergeEntries entries patch).get? k =
      match patch.get? k with
      | none => entries.get? k
      | some s => if s = removalValue then none else some (.string s) := by
  induction patch generalizing entries with
  | nil => rfl
  | cons e rest ih =>
      obtain ⟨k', s⟩ := e
      have hrest : k = k' → Dict.get? rest k = none := by
        rintro rfl
        exact Dict.get?_eq_none_iff.mpr fun hk => String.lt_irrefl k (hpatch.cons_lt k hk)
      rw [mergeEntries, Dict.get?_cons]
      by_cases hk : k' = k
      · rw [if_pos hk]
        split <;> rw [ih hpatch.tail, hrest hk.symm]
        · simp [Dict.get?_erase, *]
        · simp [*]
      · rw [if_neg hk]
        split <;> rw [ih hpatch.tail] <;> cases Dict.get? rest k <;>
          simp [Dict.get?_erase, Dict.get?_insert, Ne.symm hk]

theorem put_of_patchTable (hpath : path ≠ []) (h : patchTable path patch attributes = .ok out) :
    nested? path attributes = none ∧ mergeEntries [] patch = [] ∧ out = attributes ∨
      Put (.object (mergeEntries (entriesOf (nested? path attributes)) patch)) path attributes out := by
  unfold patchTable at h
  cases hpresent : nested? path attributes with
  | none =>
      simp only [hpresent, pure_bind] at h
      split at h
      · next hempty =>
        exact .inl ⟨rfl, by simpa using hempty, (Except.pure_eq_ok_iff.mp h).symm⟩
      · exact .inr (put_of_putNested hpath h)
  | some x =>
      cases x with
      | null =>
          simp only [hpresent, pure_bind] at h
          exact .inr (put_of_putNested hpath h)
      | object members =>
          simp only [hpresent] at h
          obtain ⟨entries, hentries, h⟩ := Except.bind_eq_ok_iff.mp h
          rw [eq_of_stringEntries hentries] at h
          exact .inr (put_of_putNested hpath h)
      | _ =>
          simp only [hpresent] at h
          cases h

theorem text?_of_put (h : Put (.object entries) path attributes out) (hpath : path ≠ []) :
    text? path k out = (entries.get? k).bind asString? := by
  rw [text?, nested?_eq_value? hpath, h.value?, entriesOf]

theorem text?_patchTable (hpath : path ≠ []) (hpatch : patch.Sorted)
    (h : patchTable path patch attributes = .ok out) (k : String) :
    text? path k out = amend (patch.get? k) (text? path k attributes) := by
  rcases put_of_patchTable hpath h with ⟨habsent, hempty, rfl⟩ | hput
  · have hmerged : (mergeEntries [] patch).get? k = none := by rw [hempty, Dict.get?_nil]
    rw [get?_mergeEntries hpatch] at hmerged
    have hold : text? path k out = none := by simp [text?, habsent, entriesOf]
    rw [hold]
    cases hsaid : patch.get? k with
    | none => rfl
    | some s =>
        simp only [hsaid] at hmerged
        rw [amend]
        by_cases hs : s = removalValue
        · rw [if_pos hs]
        · simp [hs] at hmerged
  · rw [text?_of_put hput hpath, get?_mergeEntries hpatch, text?]
    cases patch.get? k with
    | none => rfl
    | some s =>
        rw [amend]
        by_cases hs : s = removalValue <;> simp [hs, asString?]

theorem mergeEntries_of_removals (hpatch : ∀ e ∈ patch, e.2 = removalValue) :
    mergeEntries [] patch = [] := by
  induction patch with
  | nil => rfl
  | cons e rest ih =>
      rw [mergeEntries, if_pos (hpatch e List.mem_cons_self)]
      exact ih fun x hx => hpatch x (List.mem_cons_of_mem e hx)

theorem patchTable_of_removals (hpatch : ∀ e ∈ patch, e.2 = removalValue)
    (habsent : nested? path attributes = none) : patchTable path patch attributes = .ok attributes := by
  unfold patchTable
  simp only [habsent, pure_bind, mergeEntries_of_removals hpatch]
  rfl

end OneTable

namespace Table

variable {p : Patcher} {t : Table} {attributes out : Dict Json}

theorem path_ne_nil (t : Table) : t.path ≠ [] := by
  cases t <;> exact List.cons_ne_nil _ _

theorem apart {t t' : Table} (h : t ≠ t') : t.location.Apart t'.location := by
  cases t <;> cases t' <;> first | exact absurd rfl h | (constructor <;> decide)

theorem nodup_all : all.Nodup := by decide

theorem mem_all (t : Table) : t ∈ all := by
  cases t <;> decide

@[simp] theorem patch?_dropFrom_self (t : Table) (p : Patcher) : t.patch? (t.dropFrom p) = none := by
  cases t <;> rfl

theorem patch?_dropFrom_of_ne {t' : Table} (h : t' ≠ t) (p : Patcher) :
    t'.patch? (t.dropFrom p) = t'.patch? p := by
  cases t <;> cases t' <;> first | exact absurd rfl h | rfl

def said? (t : Table) (p : Patcher) (k : String) : Option String := (t.patch? p).bind (·.get? k)

/-- A patcher gives no key of a table a text. -/
def OnlyRemoves (t : Table) (p : Patcher) : Prop :=
  ∀ patch, t.patch? p = some patch → ∀ e ∈ patch, e.2 = removalValue

def run (p : Patcher) (attributes : Dict Json) (t : Table) : Except StructureFault (Dict Json) :=
  patchTable? t.path (t.patch? p) attributes

@[simp] theorem environment_dropFrom (t : Table) (p : Patcher) :
    (t.dropFrom p).environment = p.environment := by
  cases t <;> rfl

theorem nested?_of_agreesApart {a : Location} (h : AgreesApart a (.object attributes) (.object out))
    (hapart : a.Apart t.location) : nested? t.path out = nested? t.path attributes := by
  rw [nested?_eq_value? t.path_ne_nil, nested?_eq_value? t.path_ne_nil]
  exact h _ hapart

theorem put_of_run (h : t.run p attributes = .ok out) :
    out = attributes ∨ (t.patch? p).isSome ∧ ∃ value, Put value t.path attributes out := by
  unfold run patchTable? at h
  split at h
  · exact .inl (Except.ok.inj h).symm
  · next patch hpatch =>
    rcases put_of_patchTable t.path_ne_nil h with ⟨-, -, hout⟩ | hput
    · exact .inl hout
    · exact .inr ⟨by rw [hpatch, Option.isSome_some], _, hput⟩

theorem agreesApart_of_run (h : t.run p attributes = .ok out) :
    AgreesApart t.location (.object attributes) (.object out) := by
  rcases put_of_run h with rfl | ⟨-, value, hput⟩
  · exact agreesApart_refl _ _
  · exact hput.agreesApart

theorem nested?_of_run {t' : Table} (h : t.run p attributes = .ok out) (hne : t' ≠ t) :
    nested? t'.path out = nested? t'.path attributes :=
  nested?_of_agreesApart (agreesApart_of_run h) (apart hne.symm)

theorem text?_of_run (hsorted : ∀ patch, t.patch? p = some patch → patch.Sorted)
    (h : t.run p attributes = .ok out) (k : String) :
    text? t.path k out = amend (t.said? p k) (text? t.path k attributes) := by
  unfold run patchTable? at h
  rw [said?]
  split at h
  · next hnone =>
    obtain rfl := Except.ok.inj h
    rw [hnone, Option.bind_none, amend]
  · next patch hpatch =>
    rw [hpatch, Option.bind_some]
    exact text?_patchTable t.path_ne_nil (hsorted patch hpatch) h k

theorem run_of_onlyRemoves (hp : t.OnlyRemoves p) (habsent : nested? t.path attributes = none) :
    t.run p attributes = .ok attributes := by
  unfold run patchTable?
  split
  · rfl
  · next patch hpatch => exact patchTable_of_removals (hp patch hpatch) habsent

section Runs

variable {ts : List Table}

theorem value?_of_apart {location : Location}
    (hapart : ∀ t ∈ ts, (t.patch? p).isSome → t.location.Apart location)
    (h : ts.foldlM (run p) attributes = .ok out) :
    (object out).value? location = (object attributes).value? location := by
  induction ts generalizing attributes with
  | nil =>
      obtain rfl := Except.ok.inj h
      rfl
  | cons first rest ih =>
      obtain ⟨next, hnext, h⟩ := Except.bind_eq_ok_iff.mp h
      rw [ih (fun t ht => hapart t (List.mem_cons_of_mem first ht)) h]
      rcases put_of_run hnext with rfl | ⟨hsome, value, hput⟩
      · rfl
      · exact hput.agreesApart location (hapart first List.mem_cons_self hsome)

/-- Tables that are patched one after the other do not meet. -/
theorem text?_of_foldlM (hts : ts.Nodup)
    (hsorted : ∀ (t : Table) patch, t.patch? p = some patch → patch.Sorted)
    (h : ts.foldlM (run p) attributes = .ok out) (t : Table) (k : String) :
    text? t.path k out =
      if t ∈ ts then amend (t.said? p k) (text? t.path k attributes)
      else text? t.path k attributes := by
  induction ts generalizing attributes with
  | nil =>
      obtain rfl := Except.ok.inj h
      rfl
  | cons first rest ih =>
      obtain ⟨next, hnext, h⟩ := Except.bind_eq_ok_iff.mp h
      obtain ⟨hfirst, hrest⟩ := List.nodup_cons.mp hts
      rw [ih hrest h]
      by_cases ht : t = first
      · subst ht
        rw [if_neg hfirst, if_pos List.mem_cons_self, text?_of_run (hsorted t) hnext]
      · have hsame : text? t.path k next = text? t.path k attributes := by
          rw [text?, nested?_of_run hnext ht, text?]
        rw [hsame]
        simp [ht]

theorem nested?_of_foldlM (hp : t.OnlyRemoves p) (habsent : nested? t.path attributes = none)
    (h : ts.foldlM (run p) attributes = .ok out) :
    nested? t.path out = none ∧ ts.foldlM (run (t.dropFrom p)) attributes = .ok out := by
  induction ts generalizing attributes with
  | nil =>
      obtain rfl := Except.ok.inj h
      exact ⟨habsent, rfl⟩
  | cons first rest ih =>
      obtain ⟨next, hnext, h⟩ := Except.bind_eq_ok_iff.mp h
      by_cases ht : t = first
      · subst ht
        rw [run_of_onlyRemoves hp habsent] at hnext
        obtain rfl := Except.ok.inj hnext
        obtain ⟨hstays, hrest⟩ := ih habsent h
        refine ⟨hstays, ?_⟩
        rw [List.foldlM_cons, run, patch?_dropFrom_self]
        exact hrest
      · obtain ⟨hstays, hrest⟩ := ih ((nested?_of_run hnext ht).trans habsent) h
        refine ⟨hstays, ?_⟩
        rw [List.foldlM_cons, run, patch?_dropFrom_of_ne (Ne.symm ht)]
        exact Except.bind_eq_ok_iff.mpr ⟨next, hnext, hrest⟩

end Runs

end Table

theorem patchTables_eq_foldlM (p : Patcher) (attributes : Dict Json) :
    patchTables p attributes = Table.all.foldlM (Table.run p) attributes := by
  simp only [Table.all, List.foldlM_cons, List.foldlM_nil, bind_pure]
  rfl

end WorkloadPatch

end ResourceGraph
