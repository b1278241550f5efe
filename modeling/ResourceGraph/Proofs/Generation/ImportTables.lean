import Mathlib.Logic.Relator
import ResourceGraph.Proofs.Generation.Imports

/-!
Import tables merged over all modules. The table so far and what is still to be added are seen
together as one relation between ids and targets: merging goes through exactly when this relation is
a function. It is the same relation in whatever order the modules come.
-/

namespace ResourceGraph

open Relator

namespace Config

theorem stringMap_eq_ok_iff {config : Config} {key : String} {entries : Dict String} :
    config.stringMap key = .ok entries ↔
      config.get? key = none ∧ entries = [] ∨ config.get? key = some (.ofStringDict entries) := by
  unfold stringMap
  split
  · next hnone =>
    rw [hnone, Except.ok.injEq]
    simp [eq_comm]
  · next members hmembers =>
    rw [hmembers, Except.mapM_eq_ok_iff_eq_map (g := fun e => (e.1, .string e.2))]
    · simp [Json.ofStringDict, Dict.mapValues]
    · rintro ⟨name, value⟩ ⟨name', text⟩
      cases value <;> simp
  · next other hobject hother =>
    rw [hother]
    constructor
    · intro h
      contradiction
    · rintro (⟨hnone, -⟩ | hsome)
      · contradiction
      · exact absurd (Option.some.inj hsome) (hobject _)

end Config

namespace Imports

/-- A configuration imports nothing, or an object of texts. -/
def Readable (config : Config) : Prop :=
  config.get? "importedResources" = none ∨
    ∃ entries, config.get? "importedResources" = some (.ofStringDict entries)

def Maps (config : Config) (id target : String) : Prop :=
  ∃ entries, config.get? "importedResources" = some (.ofStringDict entries) ∧ (id, target) ∈ entries

theorem readable_iff {config : Config} :
    Readable config ↔ ∃ entries, config.stringMap member = .ok entries := by
  simp only [Config.stringMap_eq_ok_iff]
  constructor
  · rintro (hnone | ⟨entries, hsome⟩)
    · exact ⟨[], .inl ⟨hnone, rfl⟩⟩
    · exact ⟨entries, .inr hsome⟩
  · rintro ⟨entries, ⟨hnone, -⟩ | hsome⟩
    · exact .inl hnone
    · exact .inr ⟨entries, hsome⟩

theorem declares_iff_maps {config : Config} {id target : String} :
    Declares config id target ↔ Maps config id target := by
  simp only [Declares, Config.stringMap_eq_ok_iff]
  constructor
  · rintro ⟨entries, ⟨-, rfl⟩ | hsome, hmem⟩
    · exact absurd hmem List.not_mem_nil
    · exact ⟨entries, hsome, hmem⟩
  · rintro ⟨entries, hsome, hmem⟩
    exact ⟨entries, .inr hsome, hmem⟩

theorem maps_iff_mem {config : Config} {entries : Dict String}
    (h : config.stringMap member = .ok entries) {id target : String} :
    Maps config id target ↔ (id, target) ∈ entries := by
  rw [← declares_iff_maps, Declares, h]
  simp

theorem rightUnique_get? (table : Dict String) :
    RightUnique fun id target => table.get? id = some target := by
  intro id target target' h h'
  exact Option.some.inj (h.symm.trans h')

variable {module : String} {imported entries : Dict String} {configs : Dict Config}

theorem exists_addEntries_iff :
    (∃ merged, addEntries module imported entries = .ok merged) ↔
      RightUnique fun id target => imported.get? id = some target ∨ (id, target) ∈ entries := by
  constructor
  · rintro ⟨merged, h⟩
    simp only [← get?_addEntries_iff h]
    exact rightUnique_get? merged
  · intro h
    induction entries generalizing imported with
    | nil => exact ⟨imported, rfl⟩
    | cons entry rest ih =>
        obtain ⟨id, target⟩ := entry
        rw [addEntries]
        split
        · next hfresh =>
          apply ih
          intro id' target' target'' h' h''
          -- What the longer table says was said before, by the table or by its new entry.
          have hsaid : ∀ said, (imported.insert id target).get? id' = some said ∨ (id', said) ∈ rest →
              imported.get? id' = some said ∨ (id', said) ∈ (id, target) :: rest := by
            rintro said (hsaid | hsaid)
            · rw [Dict.get?_insert] at hsaid
              split at hsaid
              · next hid =>
                obtain rfl := Option.some.inj hsaid
                exact .inr (hid ▸ List.mem_cons_self)
              · exact .inl hsaid
            · exact .inr (List.mem_cons_of_mem _ hsaid)
          exact h (hsaid _ h') (hsaid _ h'')
        · next known hknown =>
          rw [if_pos (h (.inl hknown) (.inr List.mem_cons_self))]
          apply ih
          intro id' target' target'' h' h''
          exact h (h'.imp_right (List.mem_cons_of_mem _)) (h''.imp_right (List.mem_cons_of_mem _))

theorem get?_addModules_iff_maps {merged : Dict String}
    (h : addModules imported configs = .ok merged) (id target : String) :
    merged.get? id = some target ↔
      imported.get? id = some target ∨ ∃ e ∈ configs, Maps e.2 id target := by
  simp only [← declares_iff_maps]
  exact get?_addModules_iff h id target

theorem readable_of_addModules {merged : Dict String}
    (h : addModules imported configs = .ok merged) : ∀ e ∈ configs, Readable e.2 := by
  induction configs generalizing imported with
  | nil => exact nofun
  | cons e rest ih =>
      obtain ⟨entries, hentries, h⟩ := Except.bind_eq_ok_iff.mp h
      obtain ⟨between, -, h⟩ := Except.bind_eq_ok_iff.mp h
      have hread := readable_iff.mpr ⟨entries, Except.mapError_eq_ok_iff.mp hentries⟩
      exact List.forall_mem_cons.mpr ⟨hread, ih h⟩

theorem exists_addModules_iff :
    (∃ merged, addModules imported configs = .ok merged) ↔
      (∀ e ∈ configs, Readable e.2) ∧
        RightUnique fun id target =>
          imported.get? id = some target ∨ ∃ e ∈ configs, Maps e.2 id target := by
  constructor
  · rintro ⟨merged, h⟩
    refine ⟨readable_of_addModules h, ?_⟩
    simp only [← get?_addModules_iff_maps h]
    exact rightUnique_get? merged
  · rintro ⟨hread, h⟩
    induction configs generalizing imported with
    | nil => exact ⟨imported, rfl⟩
    | cons e rest ih =>
        obtain ⟨hfirst, hrest⟩ := List.forall_mem_cons.mp hread
        obtain ⟨entries, hentries⟩ := readable_iff.mp hfirst
        simp only [List.exists_mem_cons_iff, maps_iff_mem hentries, ← or_assoc] at h
        obtain ⟨between, hbetween⟩ : ∃ between, addEntries e.1 imported entries = .ok between := by
          apply exists_addEntries_iff.mpr
          intro id target target' h' h''
          exact h (.inl h') (.inl h'')
        simp only [← get?_addEntries_iff hbetween] at h
        obtain ⟨merged, hmerged⟩ := ih hrest h
        refine ⟨merged, Except.bind_eq_ok_iff.mpr ⟨entries, ?_, ?_⟩⟩
        · exact Except.mapError_eq_ok_iff.mpr hentries
        · exact Except.bind_eq_ok_iff.mpr ⟨between, hbetween, hmerged⟩

theorem sorted_addEntries {merged : Dict String} (sorted : imported.Sorted)
    (h : addEntries module imported entries = .ok merged) : merged.Sorted := by
  induction entries generalizing imported with
  | nil =>
      obtain rfl := Except.ok.inj h
      exact sorted
  | cons entry rest ih =>
      rw [addEntries] at h
      split at h
      · exact ih (sorted.insert _ _) h
      · split at h
        · exact ih sorted h
        · contradiction

theorem sorted_addModules {merged : Dict String} (sorted : imported.Sorted)
    (h : addModules imported configs = .ok merged) : merged.Sorted := by
  induction configs generalizing imported with
  | nil =>
      obtain rfl := Except.ok.inj h
      exact sorted
  | cons e rest ih =>
      obtain ⟨entries, -, h⟩ := Except.bind_eq_ok_iff.mp h
      obtain ⟨between, hbetween, h⟩ := Except.bind_eq_ok_iff.mp h
      exact ih (sorted_addEntries sorted hbetween) h

theorem exists_ofConfigs_iff :
    (∃ imported, ofConfigs configs = .ok imported) ↔
      (∀ e ∈ configs, Readable e.2) ∧
        RightUnique fun id target => ∃ e ∈ configs, Maps e.2 id target := by
  simp only [ofConfigs, Except.mapError_eq_ok_iff, exists_addModules_iff, Dict.get?_nil, reduceCtorEq,
    false_or]

theorem get?_ofConfigs_iff (h : ofConfigs configs = .ok imported) (id target : String) :
    imported.get? id = some target ↔ ∃ e ∈ configs, Maps e.2 id target := by
  rw [ofConfigs, Except.mapError_eq_ok_iff] at h
  rw [get?_addModules_iff_maps h, Dict.get?_nil]
  simp

theorem sorted_ofConfigs (h : ofConfigs configs = .ok imported) : imported.Sorted :=
  sorted_addModules Dict.sorted_nil (Except.mapError_eq_ok_iff.mp h)

section Renaming

variable {renamed : Dict Config} (perm : configs.values.Perm renamed.values)

include perm

theorem exists_mem_of_perm (P : Config → Prop) (h : ∃ e ∈ renamed, P e.2) :
    ∃ e ∈ configs, P e.2 := by
  obtain ⟨e, he, hP⟩ := h
  have hvalue : e.2 ∈ configs.values := perm.mem_iff.mpr (List.mem_map_of_mem he)
  obtain ⟨e', he', heq⟩ := List.mem_map.mp hvalue
  exact ⟨e', he', heq ▸ hP⟩

theorem ofConfigs_of_perm (h : ofConfigs configs = .ok imported) :
    ofConfigs renamed = .ok imported := by
  obtain ⟨hread, hunique⟩ := exists_ofConfigs_iff.mp ⟨imported, h⟩
  obtain ⟨imported', h'⟩ : ∃ imported', ofConfigs renamed = .ok imported' := by
    apply exists_ofConfigs_iff.mpr
    constructor
    · intro e he
      obtain ⟨e', he', heq⟩ := exists_mem_of_perm perm (· = e.2) ⟨e, he, rfl⟩
      exact heq ▸ hread e' he'
    · intro id target target' hmaps hmaps'
      exact hunique (exists_mem_of_perm perm (Maps · id target) hmaps)
        (exists_mem_of_perm perm (Maps · id target') hmaps')
  rw [h', Dict.Sorted.ext (sorted_ofConfigs h') (sorted_ofConfigs h)]
  intro id
  apply Option.ext
  intro target
  rw [get?_ofConfigs_iff h', get?_ofConfigs_iff h]
  exact ⟨exists_mem_of_perm perm (Maps · id target),
    exists_mem_of_perm perm.symm (Maps · id target)⟩

end Renaming

/-- The imports of modules are merged exactly when all of them can be read and none maps an id to
another target than another does; the names within one object are distinct, so it does not contradict
itself. Then they are what the modules map, under whatever names, and hence in whatever order, the
modules come. -/
theorem ofConfigs_merge (configs : Dict Config) :
    ((∃ imported, ofConfigs configs = .ok imported) ↔
      (∀ e ∈ configs, Readable e.2) ∧
        ∀ e ∈ configs, ∀ e' ∈ configs, ∀ id target target',
          Maps e.2 id target → Maps e'.2 id target' → target = target') ∧
    (∀ imported, ofConfigs configs = .ok imported → ∀ id target,
      imported.get? id = some target ↔ ∃ e ∈ configs, Maps e.2 id target) ∧
    ∀ renamed : Dict Config, configs.values.Perm renamed.values →
      (ofConfigs renamed).toOption = (ofConfigs configs).toOption := by
  refine ⟨?_, fun imported => get?_ofConfigs_iff, ?_⟩
  · rw [exists_ofConfigs_iff]
    refine and_congr_right fun _ => ?_
    constructor
    · intro h e he e' he' id target target' hmaps hmaps'
      exact h ⟨e, he, hmaps⟩ ⟨e', he', hmaps'⟩
    · rintro h id target target' ⟨e, he, hmaps⟩ ⟨e', he', hmaps'⟩
      exact h e he e' he' id target target' hmaps hmaps'
  · intro renamed perm
    apply Option.ext
    intro imported
    rw [Except.toOption_eq_some_iff, Except.toOption_eq_some_iff]
    exact ⟨ofConfigs_of_perm perm.symm, ofConfigs_of_perm perm⟩

def storageImports : Config :=
  [("importedResources", .object [("cache", .string "arn:cache"), ("db", .string "arn:db")])]

def sharedImports : Dict Config :=
  [("a", storageImports), ("b", Generation.importTable "db" "arn:db")]

def swappedImports : Dict Config :=
  [("a", Generation.importTable "db" "arn:db"), ("b", storageImports)]

theorem ofConfigs_merge_of_swapped :
    ofConfigs sharedImports = .ok [("cache", "arn:cache"), ("db", "arn:db")] ∧
      (∃ e ∈ sharedImports, Maps e.2 "cache" "arn:cache") ∧
      sharedImports.values.Perm swappedImports.values ∧
      (ofConfigs swappedImports).toOption = some [("cache", "arn:cache"), ("db", "arn:db")] := by
  obtain ⟨-, mapped, swapped⟩ := ofConfigs_merge sharedImports
  have perm : sharedImports.values.Perm swappedImports.values := List.Perm.swap _ _ []
  exact ⟨rfl, (mapped _ rfl "cache" "arn:cache").mp rfl, perm, swapped _ perm⟩

end Imports

end ResourceGraph
