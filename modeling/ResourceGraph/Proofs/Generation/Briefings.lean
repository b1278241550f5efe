import Mathlib.Data.List.Induction
import ResourceGraph.Proofs.Generation.Settled

namespace ResourceGraph

namespace Dict

variable {β γ : Type u} {d : Dict β}

theorem Sorted.getLast?_filterMap_eq_some_iff {f : String × β → Option γ} (h : d.Sorted) {c : γ} :
    (d.filterMap f).getLast? = some c ↔
      ∃ e ∈ d, f e = some c ∧ ∀ e' ∈ d, (f e').isSome → e'.1 ≤ e.1 := by
  induction d using List.reverseRecOn with
  | nil => simp
  | append_singleton d x ih =>
      obtain ⟨hd, -, hlt⟩ := List.pairwise_append.mp h
      have hbefore : ∀ e ∈ d, e.1 < x.1 := fun e he => hlt e he x List.mem_cons_self
      rw [List.filterMap_append]
      cases hx : f x with
      | none =>
          have hnil : [x].filterMap f = [] := by rw [List.filterMap_cons, hx, List.filterMap_nil]
          rw [hnil, List.append_nil, ih hd]
          constructor
          · rintro ⟨e, he, hc, hlast⟩
            refine ⟨e, List.mem_append_left _ he, hc, ?_⟩
            intro e' he' hsome
            rcases List.mem_append.mp he' with he' | he'
            · exact hlast e' he' hsome
            · rw [List.mem_singleton.mp he', hx] at hsome
              exact nomatch hsome
          · rintro ⟨e, he, hc, hlast⟩
            rcases List.mem_append.mp he with he | he
            · exact ⟨e, he, hc, fun e' he' => hlast e' (List.mem_append_left _ he')⟩
            · rw [List.mem_singleton.mp he, hx] at hc
              exact nomatch hc
      | some b =>
          have hlast : [x].filterMap f = [b] := by rw [List.filterMap_cons, hx, List.filterMap_nil]
          rw [hlast, List.getLast?_concat]
          have hmem : x ∈ d ++ [x] := List.mem_append_right _ List.mem_cons_self
          constructor
          · rintro ⟨⟩
            refine ⟨x, hmem, hx, ?_⟩
            intro e' he' _
            rcases List.mem_append.mp he' with he' | he'
            · exact String.lt_asymm (hbefore e' he')
            · exact List.mem_singleton.mp he' ▸ String.le_refl e'.1
          · rintro ⟨e, he, hc, hlast⟩
            rcases List.mem_append.mp he with he | he
            · -- The last entry gives a value, so no earlier one is the greatest that does.
              have hle : x.1 ≤ e.1 := hlast x hmem (by rw [hx]; rfl)
              exact absurd (hbefore e he) hle
            · rw [List.mem_singleton.mp he, hx] at hc
              exact hc

theorem Sorted.firstError_iff {ε : Type v} {f : β → Except ε γ} (h : d.Sorted) {e : ε} :
    Except.FirstError (fun x : String × β => f x.2) d e ↔
      ∃ k v, d.get? k = some v ∧ f v = .error e ∧
        ∀ k' v', d.get? k' = some v' → k' < k → ∃ b, f v' = .ok b := by
  constructor
  · rintro ⟨before, ⟨k, v⟩, after, rfl, succeed, fails⟩
    have hmem : (k, v) ∈ before ++ (k, v) :: after :=
      List.mem_append_right before List.mem_cons_self
    refine ⟨k, v, h.get?_of_mem hmem, fails, ?_⟩
    intro k' v' hget hlt
    rcases List.mem_append.mp (mem_of_get?_eq_some hget) with hmem | hmem
    · exact succeed _ hmem
    · obtain ⟨-, hrest, -⟩ := List.pairwise_append.mp h
      rcases List.mem_cons.mp hmem with heq | hmem
      · exact absurd ((Prod.mk.inj heq).1 ▸ hlt) (String.lt_irrefl k)
      · exact absurd hlt (String.lt_asymm ((List.pairwise_cons.mp hrest).1 _ hmem))
  · rintro ⟨k, v, hget, fails, succeed⟩
    obtain ⟨before, after, rfl⟩ := List.append_of_mem (mem_of_get?_eq_some hget)
    refine ⟨before, (k, v), after, rfl, ?_, fails⟩
    intro y hy
    refine succeed y.1 y.2 (h.get?_of_mem (List.mem_append_left _ hy)) ?_
    exact (List.pairwise_append.mp h).2.2 y hy (k, v) List.mem_cons_self

end Dict

/-- The blocks of an application: its accessories under their names, but for the name `workload`,
under which there is the workload if there is one. -/
inductive App.HasBlock (app : App) : String → Accessory → Prop
  | workload {block : Accessory} (workload_eq : app.workload = some block) :
      HasBlock app "workload" block
  | accessory {name : String} {block : Accessory} (mem : app.accessories.get? name = some block)
      (unshadowed : app.workload = none ∨ name ≠ "workload") : HasBlock app name block

namespace App

variable {app : App} {name : String} {block : Accessory}

theorem get?_blocks_iff : app.blocks.get? name = some block ↔ app.HasBlock name block := by
  rw [blocks]
  cases hworkload : app.workload with
  | none =>
      constructor
      · exact fun h => .accessory h (.inl hworkload)
      · intro h
        cases h with
        | workload present => exact absurd (present.symm.trans hworkload) (Option.some_ne_none block)
        | accessory mem _ => exact mem
  | some w =>
      dsimp only
      rw [Dict.get?_insert]
      by_cases hname : name = "workload"
      · rw [if_pos hname]
        constructor
        · intro h
          exact hname ▸ .workload (hworkload.trans h)
        · intro h
          cases h with
          | workload present => exact hworkload.symm.trans present
          | accessory _ unshadowed =>
              rcases unshadowed with absent | hne
              · exact absurd (hworkload.symm.trans absent) (Option.some_ne_none w)
              · exact absurd hname hne
      · rw [if_neg hname]
        constructor
        · exact fun h => .accessory h (.inr hname)
        · intro h
          cases h with
          | workload _ => exact absurd rfl hname
          | accessory mem _ => exact mem

theorem sorted_blocks (sorted : app.accessories.Sorted) : app.blocks.Sorted := by
  rw [blocks]
  split
  · exact sorted.insert _ _
  · exact sorted

theorem blocks_eq_of_agree {accessories : Dict Accessory} (sorted : app.accessories.Sorted)
    (sorted' : accessories.Sorted) (present : app.workload.isSome)
    (agree : ∀ name, name ≠ "workload" → accessories.get? name = app.accessories.get? name) :
    { app with accessories }.blocks = app.blocks := by
  obtain ⟨workload, hworkload⟩ := Option.isSome_iff_exists.mp present
  rw [blocks, blocks, hworkload]
  refine Dict.Sorted.ext (sorted'.insert _ _) (sorted.insert _ _) fun name => ?_
  rw [Dict.get?_insert, Dict.get?_insert]
  split
  · rfl
  · next hname => exact agree name hname

/-- A block that a module serves, under the greatest of the names of the blocks that it serves. -/
structure IsLast (app : App) (deps : Dependencies) (key : ModuleKey) (name : String)
    (block : Accessory) : Prop where
  hasBlock : app.HasBlock name block
  moduleKey_eq : block.moduleKey deps = .ok key
  last : ∀ name' block', app.HasBlock name' block' → block'.moduleKey deps = .ok key →
    name' ≤ name

/-- The error of the block that no module serves, under the least of the names of such blocks. -/
def FirstUnserved (app : App) (deps : Dependencies) (e : GenerationError) : Prop :=
  ∃ name block, app.HasBlock name block ∧ block.moduleKey deps = .error e ∧
    ∀ name' block', app.HasBlock name' block' → name' < name →
      ∃ key, block'.moduleKey deps = .ok key

end App

/-- What a block makes a module be told: nothing unless the module serves it. -/
def Accessory.briefing? (context : Option Config) (platforms : Dict Config) (deps : Dependencies)
    (key : ModuleKey) (block : Accessory) : Option Briefing :=
  match block.moduleKey deps, block.moduleName with
  | .ok served, .ok module =>
      if served = key then some ⟨some block, (platforms.get? module).map .ofConfig, context⟩
      else none
  | _, _ => none

theorem Accessory.briefing?_eq_some_iff {context : Option Config} {platforms : Dict Config}
    {deps : Dependencies} {key : ModuleKey} {block : Accessory} {briefing : Briefing} :
    block.briefing? context platforms deps key = some briefing ↔
      block.moduleKey deps = .ok key ∧ ∃ module, block.moduleName = .ok module ∧
        briefing = ⟨some block, (platforms.get? module).map .ofConfig, context⟩ := by
  unfold briefing?
  split
  · next served module hserved hmodule =>
    rw [Option.ite_none_right_eq_some]
    constructor
    · rintro ⟨rfl, heq⟩
      exact ⟨hserved, module, hmodule, (Option.some.inj heq).symm⟩
    · rintro ⟨hkey, module', hmodule', rfl⟩
      obtain rfl := Except.ok.inj (hserved.symm.trans hkey)
      obtain rfl := Except.ok.inj (hmodule.symm.trans hmodule')
      exact ⟨rfl, rfl⟩
  · next hnone =>
    constructor
    · exact nofun
    · rintro ⟨hkey, module, hmodule, -⟩
      exact absurd hmodule (hnone key module hkey)

theorem Accessory.isSome_briefing?_iff {context : Option Config} {platforms : Dict Config}
    {deps : Dependencies} {key : ModuleKey} {block : Accessory} :
    (block.briefing? context platforms deps key).isSome ↔ block.moduleKey deps = .ok key := by
  rw [Option.isSome_iff_exists]
  constructor
  · rintro ⟨briefing, h⟩
    exact (briefing?_eq_some_iff.mp h).1
  · intro h
    obtain ⟨module, hmodule⟩ := Briefings.exists_moduleName h
    exact ⟨_, briefing?_eq_some_iff.mpr ⟨h, module, Except.mapError_eq_ok_iff.mp hmodule, rfl⟩⟩

namespace Briefings

variable {app : App} {context : Option Config} {platforms : Dict Config} {deps : Dependencies}
  {earlier briefings : Briefings} {blocks : Dict Accessory}

theorem get?_addAll (h : addAll context platforms deps earlier blocks = .ok briefings)
    (key : ModuleKey) :
    briefings.get? key.text =
      (blocks.filterMap fun b => b.2.briefing? context platforms deps key).getLast?.or
        (earlier.get? key.text) := by
  induction blocks generalizing earlier with
  | nil =>
      obtain rfl := Except.ok.inj h
      rfl
  | cons b rest ih =>
      obtain ⟨served, hserved, h⟩ := Except.bind_eq_ok_iff.mp h
      obtain ⟨module, hmodule, h⟩ := Except.bind_eq_ok_iff.mp h
      rw [ih h, Dict.get?_insert]
      by_cases hkey : served = key
      · subst hkey
        have hb : b.2.briefing? context platforms deps served =
            some ⟨some b.2, (platforms.get? module).map .ofConfig, context⟩ :=
          Accessory.briefing?_eq_some_iff.mpr
            ⟨hserved, module, Except.mapError_eq_ok_iff.mp hmodule, rfl⟩
        rw [if_pos rfl, List.filterMap_cons, hb, List.getLast?_cons]
        cases List.getLast? _ with
        | none => rfl
        | some c => rfl
      · have hb : b.2.briefing? context platforms deps key = none := by
          rw [← Option.not_isSome_iff_eq_none, Accessory.isSome_briefing?_iff, hserved]
          exact fun heq => hkey (Except.ok.inj heq)
        rw [if_neg fun htext => hkey (congrArg ModuleKey.mk htext).symm, List.filterMap_cons, hb]

theorem get?_ofApp_eq_some_iff (sorted : app.accessories.Sorted)
    (h : ofApp app context platforms deps = .ok briefings) {key : ModuleKey} {briefing : Briefing} :
    briefings.get? key.text = some briefing ↔
      ∃ name block module, app.IsLast deps key name block ∧ block.moduleName = .ok module ∧
        briefing = ⟨some block, (platforms.get? module).map .ofConfig, context⟩ := by
  have hblocks := App.sorted_blocks sorted
  rw [get?_addAll h key, Dict.get?_nil, Option.or_none, hblocks.getLast?_filterMap_eq_some_iff]
  constructor
  · rintro ⟨⟨name, block⟩, hmem, hbriefing, hlast⟩
    obtain ⟨hkey, module, hmodule, rfl⟩ := Accessory.briefing?_eq_some_iff.mp hbriefing
    have hblock : app.HasBlock name block := App.get?_blocks_iff.mp (hblocks.get?_of_mem hmem)
    refine ⟨name, block, module, ⟨hblock, hkey, ?_⟩, hmodule, rfl⟩
    intro name' block' hblock' hkey'
    exact hlast (name', block') (Dict.mem_of_get?_eq_some (App.get?_blocks_iff.mpr hblock'))
      (Accessory.isSome_briefing?_iff.mpr hkey')
  · rintro ⟨name, block, module, ⟨hblock, hkey, hlast⟩, hmodule, rfl⟩
    refine ⟨(name, block), Dict.mem_of_get?_eq_some (App.get?_blocks_iff.mpr hblock),
      Accessory.briefing?_eq_some_iff.mpr ⟨hkey, module, hmodule, rfl⟩, ?_⟩
    intro e he hsome
    exact hlast e.1 e.2 (App.get?_blocks_iff.mp (hblocks.get?_of_mem he))
      (Accessory.isSome_briefing?_iff.mp hsome)

theorem ofApp_eq_error_iff (sorted : app.accessories.Sorted) {e : GenerationError} :
    ofApp app context platforms deps = .error e ↔ app.FirstUnserved deps e := by
  rw [ofApp, addAll_eq_error_iff]
  refine Iff.trans ((App.sorted_blocks sorted).firstError_iff (f := (·.moduleKey deps))) ?_
  simp only [App.get?_blocks_iff]
  rfl

theorem exists_ofApp_iff (sorted : app.accessories.Sorted) :
    (∃ briefings, ofApp app context platforms deps = .ok briefings) ↔
      ∀ name block, app.HasBlock name block → ∃ key, block.moduleKey deps = .ok key := by
  constructor
  · rintro ⟨briefings, h⟩ name block hblock
    obtain ⟨key, hkey, -⟩ := exists_key_of_addAll h (name, block)
      (Dict.mem_of_get?_eq_some (App.get?_blocks_iff.mpr hblock))
    exact ⟨key, hkey⟩
  · intro served
    cases h : ofApp app context platforms deps with
    | ok briefings => exact ⟨briefings, rfl⟩
    | error e =>
        obtain ⟨name, block, hblock, fails, -⟩ := (ofApp_eq_error_iff sorted).mp h
        obtain ⟨key, hkey⟩ := served name block hblock
        exact nomatch fails.symm.trans hkey

/-- Briefings that are made are those of the modules that serve blocks: each is told of the last
block that it serves. -/
structure Index (app : App) (context : Option Config) (platforms : Dict Config)
    (deps : Dependencies) (briefings : Briefings) : Prop where
  sorted : briefings.Sorted
  mem_keys_iff : ∀ text, text ∈ briefings.keys ↔
    ∃ name block, app.HasBlock name block ∧ block.moduleKey deps = .ok ⟨text⟩
  get?_eq_some_iff : ∀ key briefing, briefings.get? key.text = some briefing ↔
    ∃ name block module, app.IsLast deps key name block ∧ block.moduleName = .ok module ∧
      briefing = ⟨some block, (platforms.get? module).map .ofConfig, context⟩
  mem_keys_of_workload : ∀ workload, app.workload = some workload →
    ∃ key, workload.moduleKey deps = .ok key ∧ key.text ∈ briefings.keys

theorem index_of_ofApp (sorted : app.accessories.Sorted)
    (h : ofApp app context platforms deps = .ok briefings) :
    Index app context platforms deps briefings := by
  have served := exists_key_of_addAll h
  refine ⟨sorted_addAll h Dict.sorted_nil, ?_, ?_, ?_⟩
  · intro text
    constructor
    · intro hmem
      obtain ⟨briefing, hbriefing⟩ :
          ∃ briefing, briefings.get? (ModuleKey.mk text).text = some briefing :=
        Option.isSome_iff_exists.mp (Dict.mem_keys_iff.mp hmem)
      obtain ⟨name, block, -, hlast, -⟩ := (get?_ofApp_eq_some_iff sorted h).mp hbriefing
      exact ⟨name, block, hlast.hasBlock, hlast.moduleKey_eq⟩
    · rintro ⟨name, block, hblock, hkey⟩
      obtain ⟨key, hserved, hmem⟩ :=
        served (name, block) (Dict.mem_of_get?_eq_some (App.get?_blocks_iff.mpr hblock))
      obtain rfl := Except.ok.inj (hserved.symm.trans hkey)
      exact hmem
  · intro key briefing
    exact get?_ofApp_eq_some_iff sorted h
  · intro workload hworkload
    exact served _ (App.mem_blocks_of_workload hworkload)

/-- Briefings are made if and only if modules serve all blocks, and then they are those of the last
block of each module; otherwise the first block that no module serves decides the error. An
accessory that the workload shadows has no part in any of it. -/
theorem ofApp_index (app : App) (context : Option Config) (platforms : Dict Config)
    (deps : Dependencies) (sorted : app.accessories.Sorted) :
    ((∃ briefings, ofApp app context platforms deps = .ok briefings) ↔
      ∀ name block, app.HasBlock name block → ∃ key, block.moduleKey deps = .ok key) ∧
    (∀ e, ofApp app context platforms deps = .error e ↔ app.FirstUnserved deps e) ∧
    (∀ briefings, ofApp app context platforms deps = .ok briefings →
      Index app context platforms deps briefings) ∧
    (app.workload.isSome → ∀ accessories : Dict Accessory, accessories.Sorted →
      (∀ name, name ≠ "workload" → accessories.get? name = app.accessories.get? name) →
      ofApp { app with accessories } context platforms deps =
        ofApp app context platforms deps) := by
  refine ⟨exists_ofApp_iff sorted, fun e => ofApp_eq_error_iff sorted,
    fun briefings => index_of_ofApp sorted, ?_⟩
  intro present accessories sorted' agree
  rw [ofApp, ofApp, App.blocks_eq_of_agree sorted sorted' present agree]

def replica : Accessory :=
  ⟨[(.string "_type", .string "mysql.MySQL"), (.string "role", .string "replica")]⟩

def replicatedApp : App where
  name := "web"
  workload := some ⟨[(.string "_type", .string "service.Service")]⟩
  accessories := [("db", ⟨[(.string "_type", .string "mysql.MySQL")]⟩), ("replica", replica),
    ("workload", ⟨[(.string "_type", .string "redis.Redis")]⟩)]

theorem ofApp_index_of_replica :
    replicatedApp.accessories.Sorted ∧
      ∃ briefings,
        ofApp replicatedApp none [("mysql", [("size", .string "10")])] shopInputs.dependencies =
          .ok briefings ∧
        Index replicatedApp none [("mysql", [("size", .string "10")])] shopInputs.dependencies
          briefings ∧
        briefings.keys = ["acme/mysql@2", "acme/service@1"] ∧
        briefings.get? "acme/mysql@2" =
          some ⟨some replica, some ⟨[("size", .string "10")], none⟩, none⟩ ∧
        replicatedApp.FirstUnserved [] (.moduleNotFound "mysql") := by
  have sorted : replicatedApp.accessories.Sorted := by
    unfold Dict.Sorted
    decide
  obtain ⟨-, -, index, -⟩ := ofApp_index replicatedApp none [("mysql", [("size", .string "10")])]
    shopInputs.dependencies sorted
  obtain ⟨-, refused, -, -⟩ := ofApp_index replicatedApp none [] [] sorted
  refine ⟨sorted, _, rfl, index _ rfl, rfl, rfl, (refused _).mp rfl⟩

end Briefings

end ResourceGraph
