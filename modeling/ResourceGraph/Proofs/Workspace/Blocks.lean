import ResourceGraph.Proofs.Document.Stable
import ResourceGraph.Workspace

namespace ResourceGraph

open Document Json

variable {depth : Nat}

namespace PatcherBlock

/-- A block as reading leaves it: its configuration is a table beside the selector, of canonical
values inside fewer than `bound` collections. -/
structure Regular (bound : Nat) (b : PatcherBlock) : Prop where
  sorted : b.config.Sorted
  unknown : ∀ e ∈ b.config, e.1 ≠ "projectSelector"
  canonical : ∀ e ∈ b.config, e.2.canonical = e.2
  depth_lt : ∀ e ∈ b.config, e.2.depth < bound

theorem regular_of_read? {value : Json} {b : PatcherBlock} {bound : Nat}
    (h : read? (.json depth value) = some b) (hbound : value.depth ≤ bound) : b.Regular bound := by
  obtain ⟨⟨fields, others⟩, hrecord, h⟩ := Option.bind_eq_some_iff.mp h
  obtain ⟨config, hconfig, h⟩ := Option.bind_eq_some_iff.mp h
  obtain ⟨selector, -, h⟩ := Option.bind_eq_some_iff.mp h
  obtain rfl := Option.some.inj h
  obtain ⟨-, hothers⟩ := setAside_of_openRecord? hrecord
  obtain ⟨hsorted, hentries⟩ := sorted_others (P := fun e => e.1 ≠ "projectSelector" ∧
    e.2.canonical = e.2 ∧ e.2.depth < bound) hconfig (by
      intro e he j hj
      obtain ⟨hunknown, haside⟩ := hothers e he
      obtain ⟨name, aside⟩ := e
      obtain @⟨v, hv, -⟩ := haside
      rw [json?, Option.ite_none_right_eq_some] at hj
      obtain rfl := Option.some.inj hj.2
      have hle := depth_canonical_le v
      refine ⟨fun hname => hunknown (hname ▸ List.mem_cons_self), canonical_canonical v, ?_⟩
      exact Nat.lt_of_le_of_lt hle (Nat.lt_of_lt_of_le hv hbound))
  exact ⟨hsorted, fun e he => (hentries e he).1, fun e he => (hentries e he).2.1,
    fun e he => (hentries e he).2.2⟩

theorem depth_ofStrings_le (texts : List String) : (ofStrings texts).depth ≤ 1 := by
  refine Nat.succ_le_succ ((depthItems_le_iff _ 0).mpr ?_)
  intro x hx
  obtain ⟨text, -, rfl⟩ := List.mem_map.mp hx
  exact Nat.le_refl 0

variable {bound : Nat} {b : PatcherBlock}

theorem Regular.depth_toJson_le (h : b.Regular bound) : b.toJson.depth ≤ max 2 bound := by
  have hselector := depth_ofStrings_le b.selector
  have hconfig : depthMembers b.config ≤ bound - 1 := by
    refine (depthMembers_le_iff _ _).mpr fun e he => ?_
    exact Nat.le_pred_of_lt (h.depth_lt e he)
  rw [toJson, Json.depth, depthMembers]
  omega

theorem Regular.read?_toJson (h : b.Regular bound) (hbound : bound ≤ jsonDepthLimit) :
    read? (.json 0 b.toJson) = some b := by
  have hdepth : ∀ e ∈ b.config, e.2.depth + 1 ≤ jsonDepthLimit :=
    fun e he => Nat.le_trans (h.depth_lt e he) hbound
  have hrecord : openRecord? form (.json 0 b.toJson) =
      some ([("projectSelector", .json 1 (.ofStrings b.selector))],
        b.config.map fun e => (e.1, .json 0 e.2)) := by
    apply openRecord?_object rfl (by decide)
    intro e he
    have hle := hdepth e he
    refine ⟨h.unknown e he, .inr ?_⟩
    omega
  have hconfig : (b.config.map fun e => (e.1, Document.json 0 e.2)).mapM
      (fun e => (json? e.2).map fun v => (e.1, v)) = some b.config := by
    apply mapM_place
    intro e he
    have hle := hdepth e he
    rw [json?, h.canonical e he]
    apply if_pos
    omega
  have hselector : list? text? (.json 1 (.ofStrings b.selector)) = some b.selector :=
    list?_json (by decide) fun _ _ => rfl
  rw [read?, hrecord]
  simp [hconfig, Fields.withDefault?, Fields.field?, hselector, Dict.ofList_of_sorted h.sorted]

end PatcherBlock

namespace ModuleBlocks

def writeBlocks (blocks : Config × Dict PatcherBlock) : Json :=
  .object (("default", .ofDict blocks.1) :: Dict.mapValues PatcherBlock.toJson blocks.2)

/-- Named blocks as reading leaves them inside `depth` collections. -/
structure Regular (depth : Nat) (patchers : Dict PatcherBlock) : Prop where
  sorted : patchers.Sorted
  unknown : ∀ e ∈ patchers, e.1 ≠ "default"
  blocks : ∀ e ∈ patchers, e.2.Regular (jsonDepthLimit - (depth + 1))

theorem regular_of_others {n bound : Nat} {others : Fields}
    {entries : List (String × PatcherBlock)} (hn : depth ≤ n)
    (hothers : ∀ e ∈ others, e.1 ∉ blocksForm.names ∧ SetAside (n + 1) bound e.2)
    (h : others.mapM (fun e => (PatcherBlock.read? e.2).map fun b => (e.1, b)) = some entries) :
    Regular depth (Dict.ofList entries) := by
  obtain ⟨hsorted, hentries⟩ := sorted_others (P := fun e => e.1 ≠ "default" ∧
    e.2.Regular (jsonDepthLimit - (depth + 1))) h (by
      intro e he b hb
      obtain ⟨hunknown, haside⟩ := hothers e he
      obtain ⟨name, aside⟩ := e
      obtain @⟨v, -, hv⟩ := haside
      refine ⟨fun hname => hunknown (hname ▸ List.mem_cons_self), ?_⟩
      apply PatcherBlock.regular_of_read? hb
      omega)
  exact ⟨hsorted, fun e he => (hentries e he).1, fun e he => (hentries e he).2⟩

section Reading

variable {default : Config} {patchers : Dict PatcherBlock} (h : Regular depth patchers)
  (hdepth : depth + 3 ≤ jsonDepthLimit)

include h hdepth

theorem Regular.openRecord?_writeBlocks :
    openRecord? blocksForm (.json depth (writeBlocks (default, patchers))) =
      some ([("default", .json (depth + 1) (.ofDict default))],
        (patchers.mapValues PatcherBlock.toJson).map fun e => (e.1, .json 0 e.2)) := by
  apply openRecord?_object rfl (by omega)
  intro e he
  obtain ⟨entry, hentry, rfl⟩ := List.mem_map.mp he
  have hle := (h.blocks entry hentry).depth_toJson_le
  refine ⟨h.unknown entry hentry, .inr ?_⟩
  -- A block that is written with a selector has two levels at least, hence the room below.
  change depth + 1 + entry.2.toJson.depth ≤ jsonDepthLimit
  omega

theorem Regular.readBlocks?_writeBlocks
    (hdefault : Config.read? (.json (depth + 1) (.ofDict default)) = some default) :
    readBlocks? (.json depth (writeBlocks (default, patchers))) = some (default, patchers) := by
  have hpatchers : ((patchers.mapValues PatcherBlock.toJson).map fun e =>
      (e.1, Document.json 0 e.2)).mapM (fun e => (PatcherBlock.read? e.2).map fun b => (e.1, b)) =
        some patchers := by
    rw [Dict.mapValues, List.map_map]
    apply mapM_place
    intro e he
    exact (h.blocks e he).read?_toJson (Nat.sub_le _ _)
  rw [readBlocks?, h.openRecord?_writeBlocks hdepth]
  simp only [Option.bind_eq_bind, Option.bind_some, hpatchers, Fields.withDefault?,
    Fields.field?, List.find?_cons, beq_self_eq_true, Option.map_some, hdefault]
  rw [Option.pure_def, Dict.ofList_of_sorted h.sorted]

end Reading

theorem stable_readBlocks (hdepth : depth + 3 ≤ jsonDepthLimit) :
    Stable depth readBlocks? writeBlocks := by
  rintro d blocks @⟨n, value, hn, -⟩ h
  obtain ⟨⟨fields, others⟩, hrecord, h⟩ := Option.bind_eq_some_iff.mp h
  obtain ⟨patchers, hpatchers, h⟩ := Option.bind_eq_some_iff.mp h
  obtain ⟨default, hdefault, h⟩ := Option.bind_eq_some_iff.mp h
  obtain rfl := Option.some.inj h
  obtain ⟨hfields, hothers⟩ := setAside_of_openRecord? hrecord
  apply (regular_of_others hn hothers hpatchers).readBlocks?_writeBlocks hdepth
  have hstable : Stable (depth + 1) Config.read? .ofDict := stable_table (by omega)
  rcases Within.withDefault? hfields hdefault with rfl | ⟨d, hd, hread⟩
  · exact dict?_empty (by omega)
  · refine hstable d default ?_ hread
    obtain @⟨m, v, hm, -⟩ := hd
    exact .json (by omega) trivial

def slots (m : ModuleBlocks) : Slots :=
  [("path", if m.path.isEmpty then none else some (.string m.path)),
    ("version", if m.version.isEmpty then none else some (.string m.version)),
    ("configs", some (writeBlocks (m.default, m.patchers)))]

theorem toJson_eq_slots (m : ModuleBlocks) : m.toJson = m.slots.json := by
  cases hpath : m.path.isEmpty <;> cases hversion : m.version.isEmpty <;>
    simp [toJson, slots, Slots.json, record, field, fieldUnless, writeBlocks, hpath, hversion]

theorem stable : Stable 2 read? toJson := by
  rw [funext toJson_eq_slots]
  apply Stable.record (by decide) (fun _ => rfl) (by decide)
  intro fields m hnodup hfields h
  obtain ⟨path, hpath, h⟩ := Option.bind_eq_some_iff.mp h
  obtain ⟨version, hversion, h⟩ := Option.bind_eq_some_iff.mp h
  obtain ⟨⟨default, patchers⟩, hblocks, h⟩ := Option.bind_eq_some_iff.mp h
  obtain rfl := Option.some.inj h
  have hpath' := Slots.withDefault?_stable hnodup hfields stable_text hpath (by simp [slots])
    (omitted _ fun hempty => (String.isEmpty_iff.mp hempty).symm) rfl
  have hversion' := Slots.withDefault?_stable hnodup hfields stable_text hversion
    (by simp [slots]) (omitted _ fun hempty => (String.isEmpty_iff.mp hempty).symm) rfl
  have hblocks' := Slots.withDefault?_stable hnodup hfields (stable_readBlocks (by decide)) hblocks
    (by simp [slots]) (.inr rfl) rfl
  refine Option.bind_eq_some_iff.mpr ⟨_, hpath', ?_⟩
  refine Option.bind_eq_some_iff.mpr ⟨_, hversion', ?_⟩
  exact Option.bind_eq_some_iff.mpr ⟨_, hblocks', rfl⟩

end ModuleBlocks

end ResourceGraph
