import ResourceGraph.Proofs.Document.Stable
import ResourceGraph.Proofs.Generation.Briefings
import ResourceGraph.Proofs.Workspace.WellFormed
import ResourceGraph.Workspace.Effective

namespace ResourceGraph

namespace Document

variable {α : Type} {read : Document → Option α}

theorem sorted_of_dict? {d : Document} {t : Dict α} (h : d.dict? read = some t) :
    t.Sorted ∧ ∀ e ∈ t, ∃ d', read d' = some e.2 := by
  obtain ⟨members, -, h⟩ := Option.bind_eq_some_iff.mp h
  obtain ⟨entries, hentries, h⟩ := Option.bind_eq_some_iff.mp h
  obtain rfl := Option.some.inj h
  apply sorted_others (P := fun e => ∃ d', read d' = some e.2) hentries
  intro e _ x hx
  exact ⟨e.2, hx⟩

theorem Fields.withDefault?_cases {fields : Fields} {name : String} {default x : α}
    (h : fields.withDefault? name default read = some x) :
    x = default ∨ ∃ d, read d = some x := by
  unfold Fields.withDefault? at h
  split at h
  · next d _ => exact .inr ⟨d, h⟩
  · exact .inl (Option.some.inj h).symm

theorem unknown_of_openRecord? {form : Form} {d : Document} {fields others : Fields}
    (h : d.openRecord? form = some (fields, others)) : ∀ e ∈ others, e.1 ∉ form.names := by
  obtain ⟨members, -, h⟩ := Option.bind_eq_some_iff.mp h
  dsimp only at h
  split at h
  · exact nomatch h
  · obtain ⟨others', hothers, h⟩ := Option.bind_eq_some_iff.mp h
    obtain ⟨rfl, rfl⟩ := Prod.mk.inj (Option.some.inj h)
    intro e he
    obtain ⟨member, hmember, he⟩ := Within.mem_of_mapM_eq_some hothers e he
    obtain ⟨aside, -, rfl⟩ := Option.map_eq_some_iff.mp he
    simpa using (List.mem_filter.mp hmember).2

end Document

open Document

/-- A block whose configuration is a table apart from the selector. -/
structure PatcherBlock.Parted (b : PatcherBlock) : Prop where
  sorted : b.config.Sorted
  unknown : "projectSelector" ∉ b.config.keys

/-- Blocks that are tables by name, each with its selector apart. -/
structure ModuleBlocks.Parted (m : ModuleBlocks) : Prop where
  default_sorted : m.default.Sorted
  patchers_sorted : m.patchers.Sorted
  patchers : ∀ e ∈ m.patchers, e.2.Parted

structure Workspace.Parted (w : Workspace) : Prop where
  sorted : w.modules.Sorted
  modules : ∀ e ∈ w.modules, e.2.Parted

theorem PatcherBlock.parted_of_read? {d : Document} {b : PatcherBlock} (h : read? d = some b) :
    b.Parted := by
  obtain ⟨⟨fields, others⟩, hrecord, h⟩ := Option.bind_eq_some_iff.mp h
  obtain ⟨config, hconfig, h⟩ := Option.bind_eq_some_iff.mp h
  obtain ⟨selector, -, h⟩ := Option.bind_eq_some_iff.mp h
  obtain rfl := Option.some.inj h
  obtain ⟨hsorted, hentries⟩ := sorted_others (P := fun e => e.1 ∉ form.names) hconfig
    fun e he _ _ => unknown_of_openRecord? hrecord e he
  refine ⟨hsorted, ?_⟩
  intro hmem
  obtain ⟨e, he, hname⟩ := List.mem_map.mp hmem
  apply hentries e he
  rw [hname]
  exact List.mem_cons_self

theorem ModuleBlocks.parted_of_readBlocks? {d : Document} {default : Config}
    {patchers : Dict PatcherBlock} (h : readBlocks? d = some (default, patchers)) :
    default.Sorted ∧ patchers.Sorted ∧ ∀ e ∈ patchers, e.2.Parted := by
  obtain ⟨⟨fields, others⟩, -, h⟩ := Option.bind_eq_some_iff.mp h
  obtain ⟨entries, hentries, h⟩ := Option.bind_eq_some_iff.mp h
  obtain ⟨config, hconfig, h⟩ := Option.bind_eq_some_iff.mp h
  obtain ⟨rfl, rfl⟩ := Prod.mk.inj (Option.some.inj h)
  constructor
  · rcases Fields.withDefault?_cases hconfig with rfl | ⟨d', hd'⟩
    · exact Dict.sorted_nil
    · exact (sorted_of_dict? hd').1
  · apply sorted_others (P := fun e => e.2.Parted) hentries
    intro e _ b hb
    exact PatcherBlock.parted_of_read? hb

theorem ModuleBlocks.parted_of_read? {d : Document} {m : ModuleBlocks} (h : read? d = some m) :
    m.Parted := by
  obtain ⟨fields, -, h⟩ := Option.bind_eq_some_iff.mp h
  obtain ⟨path, -, h⟩ := Option.bind_eq_some_iff.mp h
  obtain ⟨version, -, h⟩ := Option.bind_eq_some_iff.mp h
  obtain ⟨⟨default, patchers⟩, hblocks, h⟩ := Option.bind_eq_some_iff.mp h
  obtain rfl := Option.some.inj h
  rcases Fields.withDefault?_cases hblocks with hnil | ⟨d', hd'⟩
  · obtain ⟨rfl, rfl⟩ := Prod.mk.inj hnil
    exact ⟨Dict.sorted_nil, Dict.sorted_nil, nofun⟩
  · obtain ⟨hdefault, hsorted, hpatchers⟩ := parted_of_readBlocks? hd'
    exact ⟨hdefault, hsorted, hpatchers⟩

theorem Workspace.parted_of_read? {d : Document} {w : Workspace} (h : read? d = some w) :
    w.Parted := by
  obtain ⟨fields, -, h⟩ := Option.bind_eq_some_iff.mp h
  obtain ⟨name, -, h⟩ := Option.bind_eq_some_iff.mp h
  obtain ⟨modules, hmodules, h⟩ := Option.bind_eq_some_iff.mp h
  obtain ⟨context, -, h⟩ := Option.bind_eq_some_iff.mp h
  obtain ⟨store, -, h⟩ := Option.bind_eq_some_iff.mp h
  obtain rfl := Option.some.inj h
  rcases Fields.withDefault?_cases hmodules with rfl | ⟨d', hd'⟩
  · exact ⟨Dict.sorted_nil, nofun⟩
  · obtain ⟨hsorted, hread⟩ := sorted_of_dict? hd'
    refine ⟨hsorted, ?_⟩
    intro e he
    obtain ⟨_, he⟩ := hread e he
    exact ModuleBlocks.parted_of_read? he

namespace ModuleBlocks

variable {m : ModuleBlocks} {name project : String}

/-- The configuration of a module for a project. At most one block selects the project; each key has
the value of that block if it gives one, and otherwise the default value. -/
structure Merged (m : ModuleBlocks) (project : String) (config : Config) : Prop where
  unique : ∀ e ∈ m.patchers, ∀ e' ∈ m.patchers, project ∈ e.2.selector →
    project ∈ e'.2.selector → e = e'
  get?_of_selecting : ∀ e ∈ m.patchers, project ∈ e.2.selector → ∀ key,
    config.get? key = (e.2.config.get? key).or (m.default.get? key)
  get?_of_unselected : (∀ e ∈ m.patchers, project ∉ e.2.selector) → ∀ key,
    config.get? key = m.default.get? key

theorem mem_selecting_iff {e : String × PatcherBlock} :
    e ∈ m.selecting project ↔ e ∈ m.patchers ∧ project ∈ e.2.selector := by
  rw [selecting, List.mem_filter, List.contains_iff_mem]

theorem selecting_cases (h : m.WellFormed) (project : String) :
    m.selecting project = [] ∨ ∃ e, m.selecting project = [e] := by
  have hdisjoint := (List.nodup_flatMap.mp h.selected_once).2
  have hselecting := hdisjoint.filter fun e => e.2.selector.contains project
  change (m.selecting project).Pairwise _ at hselecting
  have hmem : ∀ e ∈ m.selecting project, project ∈ e.2.selector := by
    intro e he
    exact (mem_selecting_iff.mp he).2
  cases hcases : m.selecting project with
  | nil => exact .inl rfl
  | cons e rest =>
      cases rest with
      | nil => exact .inr ⟨e, rfl⟩
      | cons e' rest =>
          rw [hcases] at hselecting hmem
          have hapart := (List.pairwise_cons.mp hselecting).1 e' List.mem_cons_self
          have he' : e' ∈ e :: e' :: rest := List.mem_cons_of_mem e List.mem_cons_self
          exact absurd (hmem e' he') (hapart (hmem e List.mem_cons_self))

theorem exists_effective (h : m.WellFormed) (parted : m.Parted) (name project : String) :
    ∃ config, m.effective name project = .ok config ∧ m.Merged project config ∧
      "projectSelector" ∉ config.keys := by
  rcases selecting_cases h project with hnone | ⟨⟨block, b⟩, hone⟩
  · have hunselected : ∀ e ∈ m.patchers, project ∉ e.2.selector := by
      intro e he hproject
      have hmem : e ∈ m.selecting project := mem_selecting_iff.mpr ⟨he, hproject⟩
      rw [hnone] at hmem
      exact nomatch hmem
    refine ⟨m.default, by rw [effective, hnone], ⟨?_, ?_, fun _ _ => rfl⟩, h.default_plain⟩
    · intro e he _ _ hproject
      exact absurd hproject (hunselected e he)
    · intro e he hproject
      exact absurd hproject (hunselected e he)
  · have hmem : (block, b) ∈ m.selecting project := by
      rw [hone]
      exact List.mem_cons_self
    obtain ⟨hb, hselects⟩ := mem_selecting_iff.mp hmem
    -- The only block that selects the project decides every key.
    have honly : ∀ e ∈ m.patchers, project ∈ e.2.selector → e = (block, b) := by
      intro e he hproject
      have hmem : e ∈ m.selecting project := mem_selecting_iff.mpr ⟨he, hproject⟩
      rw [hone] at hmem
      exact List.mem_singleton.mp hmem
    have hget := Dict.get?_overlay m.default (parted.patchers _ hb).sorted
    refine ⟨m.default.overlay b.config, by rw [effective, hone], ⟨?_, ?_, ?_⟩, ?_⟩
    · intro e he e' he' hproject hproject'
      rw [honly e he hproject, honly e' he' hproject']
    · intro e he hproject key
      rw [honly e he hproject]
      exact hget key
    · intro hunselected
      exact absurd hselects (hunselected _ hb)
    · rw [← Dict.get?_eq_none_iff, hget, Option.or_eq_none_iff, Dict.get?_eq_none_iff,
        Dict.get?_eq_none_iff]
      exact ⟨(parted.patchers _ hb).unknown, h.default_plain⟩

end ModuleBlocks

namespace Workspace

variable {project : String} {modules : Dict ModuleBlocks} {configs : Dict Config}

theorem exists_effectiveConfigs
    (h : ∀ e ∈ modules, ∃ config, e.2.effective e.1 project = .ok config) :
    ∃ configs, effectiveConfigs project modules = .ok configs := by
  induction modules with
  | nil => exact ⟨[], rfl⟩
  | cons e rest ih =>
      obtain ⟨⟨config, hconfig⟩, hrest⟩ := List.forall_mem_cons.mp h
      obtain ⟨configs, hconfigs⟩ := ih hrest
      rw [effectiveConfigs, hconfig, hconfigs]
      exact ⟨_, rfl⟩

theorem keys_effectiveConfigs (h : effectiveConfigs project modules = .ok configs) :
    configs.keys.Sublist modules.keys := by
  induction modules generalizing configs with
  | nil =>
      obtain rfl := Except.ok.inj h
      exact List.Sublist.refl _
  | cons e rest ih =>
      obtain ⟨config, -, h⟩ := Except.bind_eq_ok_iff.mp h
      obtain ⟨others, hothers, h⟩ := Except.bind_eq_ok_iff.mp h
      obtain rfl := Except.pure_eq_ok_iff.mp h
      split
      · exact (ih hothers).cons e.1
      · exact (ih hothers).cons_cons e.1

theorem get?_effectiveConfigs (sorted : modules.Sorted)
    (h : effectiveConfigs project modules = .ok configs) {name : String} {m : ModuleBlocks}
    (hm : modules.get? name = some m) :
    ∃ config, m.effective name project = .ok config ∧
      configs.get? name = if config = [] then none else some config := by
  induction modules generalizing configs with
  | nil => exact nomatch hm
  | cons e rest ih =>
      obtain ⟨name', m'⟩ := e
      obtain ⟨config, hconfig, h⟩ := Except.bind_eq_ok_iff.mp h
      obtain ⟨others, hothers, h⟩ := Except.bind_eq_ok_iff.mp h
      obtain rfl := Except.pure_eq_ok_iff.mp h
      rw [Dict.get?_cons] at hm
      by_cases hname : name' = name
      · subst hname
        rw [if_pos rfl] at hm
        obtain rfl := Option.some.inj hm
        refine ⟨config, hconfig, ?_⟩
        cases config with
        | nil =>
            -- Without an entry of its own the name is looked up among the others, which lack it.
            apply Dict.get?_eq_none_iff.mpr
            intro hmem
            exact Dict.get?_eq_none_iff.mp sorted.get?_tail ((keys_effectiveConfigs hothers).mem hmem)
        | cons x config => simp [Dict.get?_cons]
      · rw [if_neg hname] at hm
        obtain ⟨config', hconfig', hget⟩ := ih sorted.tail hothers hm
        refine ⟨config', hconfig', ?_⟩
        rw [← hget]
        split
        · rfl
        · rw [Dict.get?_cons, if_neg hname]

/-- The configurations for a project: those of the modules for which there is one that is not empty,
without the selectors. -/
structure Configures (w : Workspace) (project : String) (configs : Dict Config) : Prop where
  sorted : configs.Sorted
  get?_of_module : ∀ name m, w.modules.get? name = some m → ∃ config, m.Merged project config ∧
    configs.get? name = if config = [] then none else some config
  get?_of_no_module : ∀ name, w.modules.get? name = none → configs.get? name = none
  unselective : ∀ name config, configs.get? name = some config → "projectSelector" ∉ config.keys

theorem configures_of_effectiveConfigs {w : Workspace} (h : w.WellFormed) (parted : w.Parted)
    (hconfigs : effectiveConfigs project w.modules = .ok configs) : w.Configures project configs := by
  have hkeys := keys_effectiveConfigs hconfigs
  have hmodule : ∀ name m, w.modules.get? name = some m → ∃ config, m.Merged project config ∧
      "projectSelector" ∉ config.keys ∧
      configs.get? name = if config = [] then none else some config := by
    intro name m hm
    have hmem := Dict.mem_of_get?_eq_some hm
    obtain ⟨config, hconfig, hmerged, hplain⟩ :=
      ModuleBlocks.exists_effective (h.modules _ hmem) (parted.modules _ hmem) name project
    obtain ⟨config', hconfig', hget⟩ := get?_effectiveConfigs parted.sorted hconfigs hm
    obtain rfl := Except.ok.inj (hconfig.symm.trans hconfig')
    exact ⟨config, hmerged, hplain, hget⟩
  have hforeign : ∀ name, w.modules.get? name = none → configs.get? name = none := by
    intro name hname
    rw [Dict.get?_eq_none_iff] at hname ⊢
    exact fun hmem => hname (hkeys.mem hmem)
  constructor
  · exact List.pairwise_map.mp (parted.sorted.keys_pairwise.sublist hkeys)
  · intro name m hm
    obtain ⟨config, hmerged, -, hget⟩ := hmodule name m hm
    exact ⟨config, hmerged, hget⟩
  · exact hforeign
  · intro name config hget
    cases hm : w.modules.get? name with
    | none => exact nomatch hget.symm.trans (hforeign name hm)
    | some m =>
        obtain ⟨config', -, hplain, hget'⟩ := hmodule name m hm
        rw [hget, eq_comm, Option.ite_none_left_eq_some] at hget'
        exact Option.some.inj hget'.2 ▸ hplain

end Workspace

theorem Briefings.exists_platform {app : App} {context : Option Config} {platforms : Dict Config}
    {deps : Dependencies} {briefings : Briefings}
    (h : ofApp app context platforms deps = .ok briefings) {key : ModuleKey} {briefing : Briefing}
    (hbriefing : briefings.get? key.text = some briefing) {platform : Platform}
    (hplatform : briefing.platform = some platform) :
    ∃ module, platforms.get? module = some platform.config := by
  rw [get?_addAll h key, Dict.get?_nil, Option.or_none] at hbriefing
  obtain ⟨block, -, hblock⟩ := List.mem_filterMap.mp (List.mem_of_getLast? hbriefing)
  obtain ⟨-, module, -, rfl⟩ := Accessory.briefing?_eq_some_iff.mp hblock
  obtain ⟨config, hconfig, rfl⟩ := Option.map_eq_some_iff.mp hplatform
  exact ⟨module, hconfig⟩

namespace Workspace

/-- A workspace that is read and keeps its rules has configurations for every project, and no module
is told of a selector. -/
theorem exists_configures {d : Document} {w : Workspace} (h : read? d = some w)
    (valid : w.validate = .ok ()) (project : String) :
    ∃ configs, w.configsFor project = .ok configs ∧ w.Configures project configs ∧
      ∀ app deps briefings, Briefings.ofApp app w.context configs deps = .ok briefings →
        ∀ key briefing platform, briefings.get? (ModuleKey.text key) = some briefing →
          briefing.platform = some platform → "projectSelector" ∉ platform.config.keys := by
  have parted := parted_of_read? h
  have wellFormed := validate_eq_ok_iff.mp valid
  obtain ⟨configs, hconfigs⟩ : ∃ configs, effectiveConfigs project w.modules = .ok configs := by
    apply exists_effectiveConfigs
    intro e he
    obtain ⟨config, hconfig, -⟩ := ModuleBlocks.exists_effective (wellFormed.modules e he)
      (parted.modules e he) e.1 project
    exact ⟨config, hconfig⟩
  have configures := configures_of_effectiveConfigs wellFormed parted hconfigs
  refine ⟨configs, Except.mapError_eq_ok_iff.mpr hconfigs, configures, ?_⟩
  intro app deps briefings hbriefings key briefing platform hbriefing hplatform
  obtain ⟨module, hmodule⟩ := Briefings.exists_platform hbriefings hbriefing hplatform
  exact configures.unselective module platform.config hmodule

def databaseDocument : Document :=
  .ofJson (.object [("name", .string "dev"), ("modules", .object [
    ("mysql", .object [("configs", .object [
      ("default", .object [("size", .ofInt 10), ("engine", .string "mysql")]),
      ("big", .object [("size", .ofInt 100), ("projectSelector", .ofStrings ["payments"])])])]),
    ("network", .object [("configs", .object [("default", .object [])])])])])

def databaseWorkspace : Workspace :=
  ⟨"dev", [("mysql", ⟨"", "", [("engine", .string "mysql"), ("size", .ofInt 10)],
    [("big", ⟨["payments"], [("size", .ofInt 100)]⟩)]⟩), ("network", ⟨"", "", [], []⟩)], none, none⟩

def largeDatabase : Config := [("engine", .string "mysql"), ("size", .ofInt 100)]

def databaseBlock : Accessory := ⟨[(.string "_type", .string "mysql.MySQL")]⟩

theorem exists_configures_of_overlay :
    read? databaseDocument = some databaseWorkspace ∧ databaseWorkspace.validate = .ok () ∧
      databaseWorkspace.Configures "payments" [("mysql", largeDatabase)] ∧
      "projectSelector" ∉ largeDatabase.keys := by
  have hread : read? databaseDocument = some databaseWorkspace := by decide +kernel
  obtain ⟨configs, hconfigs, configures, untold⟩ := exists_configures hread rfl "payments"
  obtain rfl : [("mysql", largeDatabase)] = configs := Except.ok.inj hconfigs
  refine ⟨hread, rfl, configures, ?_⟩
  exact untold ⟨"web", none, [("db", databaseBlock)]⟩ [("mysql", .ofRegistry "acme/mysql" "2")]
    [("acme/mysql@2", ⟨some databaseBlock, some ⟨largeDatabase, none⟩, none⟩)] rfl ⟨"acme/mysql@2"⟩
    _ _ rfl rfl

end Workspace

end ResourceGraph
