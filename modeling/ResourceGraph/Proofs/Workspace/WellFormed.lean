import Mathlib.Data.List.Nodup
import ResourceGraph.Proofs.Dict
import ResourceGraph.Proofs.Outcome
import ResourceGraph.Workspace.Valid

/-!
Which workspaces keep their rules. The projects that the blocks of a module select are put down in a
table while they are checked; the table always holds the selections so far, so that a project is
refused exactly when it is selected for the second time. A workspace that is refused breaks the rule
that the error names.
-/

namespace ResourceGraph

open List

structure ModuleBlocks.WellFormed (m : ModuleBlocks) : Prop where
  default_plain : "projectSelector" ∉ m.default.keys
  selector_ne_nil : ∀ e ∈ m.patchers, e.2.selector ≠ []
  projects_named : ∀ e ∈ m.patchers, "" ∉ e.2.selector
  selected_once : (m.patchers.flatMap fun e => e.2.selector).Nodup

namespace Workspace

structure WellFormed (w : Workspace) : Prop where
  named : w.name ≠ ""
  modules : ∀ e ∈ w.modules, e.2.WellFormed
  one_provider : ∀ store, w.secretStore = some store → ∃ provider, store.provider = [provider]

def selections (blocks : Dict PatcherBlock) : List (String × String) :=
  blocks.flatMap fun e => e.2.selector.map fun project => (project, e.1)

theorem map_fst_selections (blocks : Dict PatcherBlock) :
    (selections blocks).map Prod.fst = blocks.flatMap fun e => e.2.selector := by
  rw [selections, map_flatMap]
  simp [Function.comp_def]

/-- What is wrong with the blocks of a module, when others have made selections before. -/
inductive Faulty (module : String) (earlier : List (String × String)) (blocks : Dict PatcherBlock) :
    WorkspaceFault → Prop
  | emptySelector {name : String} {block : PatcherBlock} (mem : (name, block) ∈ blocks)
      (empty : block.selector = []) : Faulty module earlier blocks (.emptySelector module name)
  | emptyProject {name : String} {block : PatcherBlock} (mem : (name, block) ∈ blocks)
      (nameless : "" ∈ block.selector) : Faulty module earlier blocks (.emptyProject module name)
  | selectedTwice {project first second : String}
      (twice : [(project, first), (project, second)] <+ earlier ++ selections blocks) :
      Faulty module earlier blocks (.selectedTwice module project first second)

/-- A rule that a workspace breaks. -/
inductive Breaks (w : Workspace) : WorkspaceFault → Prop
  | emptyName (nameless : w.name = "") : Breaks w .emptyName
  | defaultSelects {module : String} {m : ModuleBlocks} (mem : (module, m) ∈ w.modules)
      (selects : "projectSelector" ∈ m.default.keys) : Breaks w (.defaultSelects module)
  | blocks {module : String} {m : ModuleBlocks} {fault : WorkspaceFault}
      (mem : (module, m) ∈ w.modules) (faulty : Faulty module [] m.patchers fault) : Breaks w fault
  | providerCount {store : SecretStore} (store_eq : w.secretStore = some store)
      (count : store.provider.length ≠ 1) : Breaks w (.providerCount store.provider.length)

theorem Faulty.cons {module : String} {earlier : List (String × String)} {name : String}
    {block : PatcherBlock} {blocks : Dict PatcherBlock} {fault : WorkspaceFault}
    (h : Faulty module (earlier ++ block.selector.map fun project => (project, name)) blocks fault) :
    Faulty module earlier ((name, block) :: blocks) fault := by
  cases h with
  | emptySelector mem empty => exact .emptySelector (mem_cons_of_mem _ mem) empty
  | emptyProject mem nameless => exact .emptyProject (mem_cons_of_mem _ mem) nameless
  | selectedTwice twice =>
      apply Faulty.selectedTwice
      rwa [append_assoc] at twice

/-- Selected projects in a table, none of them twice. -/
structure Recorded (selected : Dict String) (selections : List (String × String)) : Prop where
  get?_iff : ∀ project block, selected.get? project = some block ↔ (project, block) ∈ selections
  named : "" ∉ selections.map Prod.fst
  nodup : (selections.map Prod.fst).Nodup

theorem recorded_nil : Recorded [] [] where
  get?_iff _ _ := by simp
  named := not_mem_nil
  nodup := nodup_nil

variable {module name project : String} {selected selected' : Dict String}
  {earlier : List (String × String)} {projects : List String} {blocks : Dict PatcherBlock}
  {fault : WorkspaceFault}

theorem Recorded.insert (h : Recorded selected earlier) (fresh : selected.get? project = none)
    (named : project ≠ "") :
    Recorded (selected.insert project name) (earlier ++ [(project, name)]) := by
  have hfresh : ∀ block, (project, block) ∉ earlier := by
    intro block hmem
    rw [(h.get?_iff project block).mpr hmem] at fresh
    exact nomatch fresh
  constructor
  · intro project' block
    rw [Dict.get?_insert, mem_append, mem_singleton, Prod.mk.injEq]
    by_cases hproject : project' = project
    · subst hproject
      simp [hfresh, eq_comm]
    · simp [hproject, h.get?_iff]
  · rw [map_append, mem_append]
    rintro (hmem | hmem)
    · exact h.named hmem
    · exact named (mem_singleton.mp hmem).symm
  · rw [map_append, nodup_append]
    refine ⟨h.nodup, nodup_singleton _, ?_⟩
    rintro a ha b hb rfl
    obtain ⟨⟨_, block⟩, hmem, rfl⟩ := mem_map.mp ha
    rw [map_singleton, mem_singleton] at hb
    subst hb
    exact hfresh block hmem

theorem recorded_of_selectProjects (h : Recorded selected earlier)
    (hok : selectProjects module name selected projects = .ok selected') :
    Recorded selected' (earlier ++ projects.map fun project => (project, name)) := by
  induction projects generalizing selected earlier with
  | nil =>
      obtain rfl := Except.ok.inj hok
      rwa [map_nil, append_nil]
  | cons project rest ih =>
      rw [selectProjects] at hok
      split at hok
      · exact nomatch hok
      · next hnamed =>
        split at hok
        · exact nomatch hok
        · next hfresh =>
          have hnext := ih (h.insert hfresh fun hempty => hnamed (String.isEmpty_iff.mpr hempty)) hok
          rwa [append_assoc] at hnext

theorem fault_of_selectProjects (h : Recorded selected earlier)
    (herror : selectProjects module name selected projects = .error fault) :
    "" ∈ projects ∧ fault = .emptyProject module name ∨
      ∃ project first, fault = .selectedTwice module project first name ∧
        [(project, first), (project, name)] <+
          earlier ++ projects.map fun project => (project, name) := by
  induction projects generalizing selected earlier with
  | nil => exact nomatch herror
  | cons project rest ih =>
      rw [selectProjects] at herror
      split at herror
      · next hempty =>
        refine .inl ⟨?_, (Except.error.inj herror).symm⟩
        rw [String.isEmpty_iff.mp hempty]
        exact mem_cons_self
      · next hnamed =>
        split at herror
        · next first hfirst =>
          refine .inr ⟨project, first, (Except.error.inj herror).symm, ?_⟩
          change [(project, first)] ++ [(project, name)] <+ _
          apply Sublist.append
          · exact singleton_sublist.mpr ((h.get?_iff project first).mp hfirst)
          · exact singleton_sublist.mpr mem_cons_self
        · next hfresh =>
          have hnext : Recorded (selected.insert project name) (earlier ++ [(project, name)]) :=
            h.insert hfresh fun hempty => hnamed (String.isEmpty_iff.mpr hempty)
          rcases ih hnext herror with ⟨hmem, rfl⟩ | ⟨project', first, rfl, htwice⟩
          · exact .inl ⟨mem_cons_of_mem _ hmem, rfl⟩
          · rw [append_assoc] at htwice
            exact .inr ⟨project', first, rfl, htwice⟩

theorem recorded_of_checkBlocks (h : Recorded selected earlier)
    (hok : checkBlocks module selected blocks = .ok ()) :
    (∀ e ∈ blocks, e.2.selector ≠ []) ∧
      ∃ selected', Recorded selected' (earlier ++ selections blocks) := by
  induction blocks generalizing selected earlier with
  | nil => exact ⟨nofun, selected, (append_nil earlier).symm ▸ h⟩
  | cons e rest ih =>
      obtain ⟨name, block⟩ := e
      rw [checkBlocks] at hok
      split at hok
      · exact nomatch hok
      · next hselector =>
        obtain ⟨between, hbetween, hok⟩ := Except.bind_eq_ok_iff.mp hok
        obtain ⟨hrest, selected', hselected'⟩ := ih (recorded_of_selectProjects h hbetween) hok
        refine ⟨forall_mem_cons.mpr ⟨?_, hrest⟩, selected', ?_⟩
        · intro hempty
          exact hselector (isEmpty_iff.mpr hempty)
        · rwa [append_assoc] at hselected'

theorem faulty_of_checkBlocks (h : Recorded selected earlier)
    (herror : checkBlocks module selected blocks = .error fault) :
    Faulty module earlier blocks fault := by
  induction blocks generalizing selected earlier with
  | nil => exact nomatch herror
  | cons e rest ih =>
      obtain ⟨name, block⟩ := e
      rw [checkBlocks] at herror
      split at herror
      · next hselector =>
        obtain rfl := Except.error.inj herror
        exact .emptySelector mem_cons_self (isEmpty_iff.mp hselector)
      · rcases Except.bind_eq_error_iff.mp herror with herror | ⟨between, hbetween, herror⟩
        · rcases fault_of_selectProjects h herror with ⟨hmem, rfl⟩ | ⟨project, first, rfl, htwice⟩
          · exact .emptyProject mem_cons_self hmem
          · apply Faulty.selectedTwice
            rw [selections, flatMap_cons, ← append_assoc]
            exact htwice.trans (sublist_append_left _ _)
        · exact (ih (recorded_of_selectProjects h hbetween) herror).cons

theorem wellFormed_of_checkModule {m : ModuleBlocks} (hok : checkModule module m = .ok ()) :
    m.WellFormed := by
  rw [checkModule] at hok
  split at hok
  · exact nomatch hok
  · next hdefault =>
    obtain ⟨hselector, selected, hselected⟩ := recorded_of_checkBlocks recorded_nil hok
    rw [nil_append] at hselected
    have hnamed := hselected.named
    have hnodup := hselected.nodup
    rw [map_fst_selections] at hnamed hnodup
    refine ⟨?_, hselector, ?_, hnodup⟩
    · intro hmem
      exact hdefault (Dict.mem_keys_iff.mp hmem)
    · intro e he hempty
      exact hnamed (mem_flatMap.mpr ⟨e, he, hempty⟩)

theorem wellFormed_of_checkModules {modules : Dict ModuleBlocks} (hok : checkModules modules = .ok ()) :
    ∀ e ∈ modules, e.2.WellFormed := by
  induction modules with
  | nil => exact nofun
  | cons e rest ih =>
      obtain ⟨_, hfirst, hok⟩ := Except.bind_eq_ok_iff.mp hok
      exact forall_mem_cons.mpr ⟨wellFormed_of_checkModule hfirst, ih hok⟩

theorem exists_of_checkModules {modules : Dict ModuleBlocks}
    (herror : checkModules modules = .error fault) :
    ∃ module m, (module, m) ∈ modules ∧ checkModule module m = .error fault := by
  induction modules with
  | nil => exact nomatch herror
  | cons e rest ih =>
      rcases Except.bind_eq_error_iff.mp herror with herror | ⟨_, _, herror⟩
      · exact ⟨e.1, e.2, mem_cons_self, herror⟩
      · obtain ⟨module, m, hmem, hm⟩ := ih herror
        exact ⟨module, m, mem_cons_of_mem e hmem, hm⟩

variable {w : Workspace}

theorem wellFormed_of_check (hok : w.check = .ok ()) : w.WellFormed := by
  rw [check] at hok
  split at hok
  · exact nomatch hok
  · next hnamed =>
    obtain ⟨_, hmodules, hstore⟩ := Except.bind_eq_ok_iff.mp hok
    refine ⟨?_, wellFormed_of_checkModules hmodules, ?_⟩
    · intro hempty
      exact hnamed (String.isEmpty_iff.mpr hempty)
    · intro store hw
      rw [hw, checkStore] at hstore
      split at hstore
      · next hcount => exact length_eq_one_iff.mp hcount
      · exact nomatch hstore

theorem breaks_of_check (herror : w.check = .error fault) : w.Breaks fault := by
  rw [check] at herror
  split at herror
  · next hempty =>
    obtain rfl := Except.error.inj herror
    exact .emptyName (String.isEmpty_iff.mp hempty)
  · rcases Except.bind_eq_error_iff.mp herror with hmodules | ⟨_, _, hstore⟩
    · obtain ⟨module, m, hmem, hm⟩ := exists_of_checkModules hmodules
      rw [checkModule] at hm
      split at hm
      · next hdefault =>
        obtain rfl := Except.error.inj hm
        exact .defaultSelects hmem (Dict.mem_keys_iff.mpr hdefault)
      · exact .blocks hmem (faulty_of_checkBlocks recorded_nil hm)
    · cases hw : w.secretStore with
      | none =>
          rw [hw] at hstore
          exact nomatch hstore
      | some store =>
          rw [hw, checkStore] at hstore
          split at hstore
          · exact nomatch hstore
          · next hcount =>
            obtain rfl := Except.error.inj hstore
            exact .providerCount hw hcount

theorem WellFormed.not_breaks (h : w.WellFormed) : ¬ w.Breaks fault := by
  intro hbreaks
  cases hbreaks with
  | emptyName nameless => exact h.named nameless
  | defaultSelects mem selects => exact (h.modules _ mem).default_plain selects
  | blocks mem faulty =>
      have hm := h.modules _ mem
      cases faulty with
      | emptySelector mem empty => exact hm.selector_ne_nil _ mem empty
      | emptyProject mem nameless => exact hm.projects_named _ mem nameless
      | selectedTwice twice =>
          have htwice := twice.map Prod.fst
          rw [nil_append, map_fst_selections] at htwice
          exact (nodup_cons.mp (hm.selected_once.sublist htwice)).1 mem_cons_self
  | providerCount store_eq count =>
      obtain ⟨provider, hprovider⟩ := h.one_provider _ store_eq
      exact count (hprovider ▸ length_singleton)

theorem check_eq_ok_iff : w.check = .ok () ↔ w.WellFormed := by
  constructor
  · exact wellFormed_of_check
  · intro h
    cases hcheck : w.check with
    | error fault => exact absurd (breaks_of_check hcheck) h.not_breaks
    | ok _ => rfl

theorem validate_eq_ok_iff : w.validate = .ok () ↔ w.WellFormed := by
  rw [validate, Except.mapError_eq_ok_iff, check_eq_ok_iff]

/-- Validation accepts the workspaces that keep all rules. It refuses every other one as an invalid
workspace, for a rule that is broken. -/
theorem validate_exact (w : Workspace) :
    (w.validate = .ok () ↔ w.WellFormed) ∧
      ∀ e, w.validate = .error e → ∃ fault, e = .invalidWorkspace w.name fault ∧ w.Breaks fault := by
  refine ⟨validate_eq_ok_iff, ?_⟩
  intro e he
  obtain ⟨fault, hfault, rfl⟩ := Except.mapError_eq_error_iff.mp he
  exact ⟨fault, rfl, breaks_of_check hfault⟩

end Workspace

end ResourceGraph
