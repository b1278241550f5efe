import ResourceGraph.Patcher
import ResourceGraph.Plugin.Frame
import ResourceGraph.Proofs.Document
import ResourceGraph.Proofs.Document.Decoded
import ResourceGraph.Proofs.Document.Portable
import ResourceGraph.Proofs.Json.Numeral

namespace ResourceGraph

open Document Json

namespace Variable

structure WellFormed (e : Variable) : Prop where
  valueFrom_regular : ∀ j, e.valueFrom = some j → j.Regular
  valueFrom_present : e.valueFrom ≠ some .null

def mapTexts (f : String → String) (e : Variable) : Variable where
  name := f e.name
  value := f e.value
  valueFrom := e.valueFrom.map (Json.mapTexts f)

theorem WellFormed.mapTexts {e : Variable} (h : e.WellFormed) (f : String → String) :
    (e.mapTexts f).WellFormed where
  valueFrom_regular j hj := by
    obtain ⟨v, hv, rfl⟩ := Option.map_eq_some_iff.1 hj
    exact (h.valueFrom_regular v hv).mapTexts f
  valueFrom_present hnull := by
    obtain ⟨v, hv, hmap⟩ := Option.map_eq_some_iff.1 hnull
    cases v with
    | null => exact h.valueFrom_present hv
    | _ => exact nomatch hmap

theorem toJson_mapTexts (f : String → String) (hf : ∀ t, f t = "" ↔ t = "") (e : Variable) :
    (e.mapTexts f).toJson = e.toJson.mapTexts f := by
  have hempty : (f e.value).isEmpty = e.value.isEmpty := by
    rw [Bool.eq_iff_iff, String.isEmpty_iff, String.isEmpty_iff, hf]
  cases hvalue : e.value.isEmpty <;> cases hfrom : e.valueFrom <;>
    simp [toJson, mapTexts, Json.mapTexts, Json.record, Json.field, Json.fieldUnless, Json.fieldOf,
      hempty, hvalue, hfrom, mapMembers_eq_map]

def slots (e : Variable) : Slots :=
  [("name", some (.string e.name)),
    ("value", if e.value.isEmpty then none else some (.string e.value)),
    ("valueFrom", e.valueFrom)]

theorem toJson_eq_slots (e : Variable) : e.toJson = e.slots.json := by
  cases hvalue : e.value.isEmpty <;> cases hfrom : e.valueFrom <;>
    simp [toJson, slots, Slots.json, Json.record, Json.field, Json.fieldUnless, Json.fieldOf, hvalue,
      hfrom]

theorem nodup_slots (e : Variable) : (e.slots.map Prod.fst).Nodup := by
  change form.names.Nodup
  decide

theorem mem_slots {e : Variable} {k : String} {v : Json} (h : (k, some v) ∈ e.slots) :
    (k = "name" ∧ v = .string e.name) ∨ (k = "value" ∧ v = .string e.value) ∨
      (k = "valueFrom" ∧ e.valueFrom = some v) := by
  cases hvalue : e.value.isEmpty <;> simp [slots, hvalue] at h <;> tauto

theorem read?_tree {e : Variable} (h : e.WellFormed) {depth : Nat} (hdepth : depth ≤ 2) :
    read? (.yaml depth e.toJson.tree) = some e := by
  have hlimit : Yaml.Tree.depthLimit = 128 := rfl
  have hrecord : record? form (.yaml depth e.slots.json.tree) =
      some (e.slots.fields (treeAt (depth + 1))) :=
    Slots.record?_tree (by omega) rfl (by decide)
  have hname : (e.slots.fields (treeAt (depth + 1))).required? "name" text? = some e.name :=
    Slots.required?_fields e.nodup_slots
      (show ("name", some (.string e.name)) ∈ e.slots by simp [slots]) rfl
  have hvalue : (e.slots.fields (treeAt (depth + 1))).withDefault? "value" "" text? = some e.value := by
    have hmem : ("value", if e.value.isEmpty then none else some (.string e.value)) ∈ e.slots := by
      simp [slots]
    refine Slots.withDefault?_fields e.nodup_slots hmem ?_ ?_
    · intro hnone
      have hempty : e.value.isEmpty = true := by
        by_contra hne
        simp [hne] at hnone
      exact (String.isEmpty_iff.1 hempty).symm
    · intro j hj
      split at hj
      · exact nomatch hj
      · obtain rfl := Option.some.inj hj
        rfl
  have hvalueFrom : (e.slots.fields (treeAt (depth + 1))).optional? "valueFrom" json? =
      some e.valueFrom := by
    have hmem : ("valueFrom", e.valueFrom.map fun v => v) ∈ e.slots := by simp [slots]
    refine Slots.optional?_fields e.nodup_slots hmem fun j hj => ?_
    exact optional?_json?_tree (h.valueFrom_regular j hj) (fun hnull => h.valueFrom_present (hnull ▸ hj))
      (by omega)
  rw [toJson_eq_slots, read?, hrecord]
  simp only [Option.bind_eq_bind, Option.bind_some, hname, hvalue, hvalueFrom]
  rfl

theorem depth_toJson_le {e : Variable} (h : e.WellFormed) : e.toJson.depth ≤ 126 := by
  rw [toJson_eq_slots]
  refine Slots.depth_json_le fun k v hmem => ?_
  rcases mem_slots hmem with ⟨-, rfl⟩ | ⟨-, rfl⟩ | ⟨-, hv⟩
  · exact Nat.zero_le 125
  · exact Nat.zero_le 125
  · exact (h.valueFrom_regular v hv).depth_le

theorem covers_toJson (e : Variable) : Covers form e.toJson := by
  rw [toJson_eq_slots]
  exact Slots.covers_json_of_whole nofun rfl (by simp [form, Form.record, Form.fields])

theorem wellFormed_of_read? {d : Document} {e : Variable} (hd : Within Held 2 d)
    (h : read? d = some e) : e.WellFormed := by
  obtain ⟨fields, hrecord, h⟩ := Option.bind_eq_some_iff.1 h
  obtain ⟨name, -, h⟩ := Option.bind_eq_some_iff.1 h
  obtain ⟨value, -, h⟩ := Option.bind_eq_some_iff.1 h
  obtain ⟨valueFrom, hvalueFrom, h⟩ := Option.bind_eq_some_iff.1 h
  obtain rfl := Option.some.inj h
  have hvalue : ∀ j, valueFrom = some j → j.Regular ∧ j ≠ .null := by
    rintro j rfl
    obtain ⟨d', hd', hj⟩ := Within.optionalField? (hd.record? hrecord) hvalueFrom
    exact ⟨hd'.json? (by decide) (hd'.optional? hj), hd'.ne_null hj⟩
  exact ⟨fun j hj => (hvalue j hj).1, fun hnull => (hvalue .null hnull).2 rfl⟩

end Variable

@[simp] theorem PatchRule.name_ofName (name : String) : (PatchRule.ofName name).name = name := by
  unfold ofName
  split
  · next h => exact h.symm
  · split
    · next h => exact h.symm
    · rfl

namespace AttributePatch

structure WellFormed (p : AttributePatch) : Prop where
  type_known : PatchRule.ofName p.type.name = p.type
  payload_regular : p.payload.Regular

def mapTexts (f : String → String) (p : AttributePatch) : AttributePatch where
  type := PatchRule.ofName (f p.type.name)
  payload := p.payload.mapTexts f

theorem WellFormed.mapTexts {p : AttributePatch} (h : p.WellFormed) (f : String → String) :
    (p.mapTexts f).WellFormed where
  type_known := congrArg PatchRule.ofName (PatchRule.name_ofName _)
  payload_regular := h.payload_regular.mapTexts f

theorem toJson_mapTexts (f : String → String) (p : AttributePatch) :
    (p.mapTexts f).toJson = p.toJson.mapTexts f := by
  simp [toJson, mapTexts, Json.mapTexts, Json.record, Json.field, mapMembers_eq_map]

def slots (p : AttributePatch) : Slots :=
  [("type", some (.string p.type.name)), ("payload", some p.payload)]

theorem toJson_eq_slots (p : AttributePatch) : p.toJson = p.slots.json := rfl

theorem nodup_slots (p : AttributePatch) : (p.slots.map Prod.fst).Nodup := by
  change form.names.Nodup
  decide

theorem mem_slots {p : AttributePatch} {k : String} {v : Json} (h : (k, some v) ∈ p.slots) :
    (k = "type" ∧ v = .string p.type.name) ∨ (k = "payload" ∧ v = p.payload) := by
  simpa [slots] using h

theorem read?_tree {p : AttributePatch} (h : p.WellFormed) {depth : Nat} (hdepth : depth ≤ 2) :
    read? (.yaml depth p.toJson.tree) = some p := by
  have hlimit : Yaml.Tree.depthLimit = 128 := rfl
  have hrecord : record? form (.yaml depth p.slots.json.tree) =
      some (p.slots.fields (treeAt (depth + 1))) :=
    Slots.record?_tree (by omega) rfl (by decide)
  have htype : (p.slots.fields (treeAt (depth + 1))).required? "type"
      (fun d => d.text?.map PatchRule.ofName) = some p.type :=
    Slots.required?_fields p.nodup_slots
      (show ("type", some (.string p.type.name)) ∈ p.slots by simp [slots])
      (congrArg some h.type_known)
  have hpayload : (p.slots.fields (treeAt (depth + 1))).required? "payload" json? = some p.payload :=
    Slots.required?_fields p.nodup_slots (show ("payload", some p.payload) ∈ p.slots by simp [slots])
      (json?_tree h.payload_regular (by omega))
  rw [toJson_eq_slots, read?, hrecord]
  simp only [Option.bind_eq_bind, Option.bind_some, htype, hpayload]
  rfl

theorem depth_toJson_le {p : AttributePatch} (h : p.WellFormed) : p.toJson.depth ≤ 126 := by
  rw [toJson_eq_slots]
  refine Slots.depth_json_le fun k v hmem => ?_
  rcases mem_slots hmem with ⟨-, rfl⟩ | ⟨-, rfl⟩
  · exact Nat.zero_le 125
  · exact h.payload_regular.depth_le

theorem covers_toJson (p : AttributePatch) : Covers form p.toJson := by
  rw [toJson_eq_slots]
  exact Slots.covers_json_of_whole nofun rfl (by simp [form, Form.record, Form.fields])

theorem wellFormed_of_read? {d : Document} {p : AttributePatch} (hd : Within Held 2 d)
    (h : read? d = some p) : p.WellFormed := by
  obtain ⟨fields, hrecord, h⟩ := Option.bind_eq_some_iff.1 h
  obtain ⟨type, htype, h⟩ := Option.bind_eq_some_iff.1 h
  obtain ⟨payload, hpayload, h⟩ := Option.bind_eq_some_iff.1 h
  obtain rfl := Option.some.inj h
  have hfields := hd.record? hrecord
  obtain ⟨d₁, -, htype⟩ := Within.required? hfields htype
  obtain ⟨name, -, rfl⟩ := Option.map_eq_some_iff.1 htype
  obtain ⟨d₂, hd₂, hpayload⟩ := Within.required? hfields hpayload
  exact ⟨congrArg PatchRule.ofName (PatchRule.name_ofName name), hd₂.json? (by decide) hpayload⟩

end AttributePatch

namespace Patcher

structure WellFormed (p : Patcher) : Prop where
  labels_sorted : ∀ d, p.labels = some d → d.Sorted
  podLabels_sorted : ∀ d, p.podLabels = some d → d.Sorted
  annotations_sorted : ∀ d, p.annotations = some d → d.Sorted
  podAnnotations_sorted : ∀ d, p.podAnnotations = some d → d.Sorted
  environment_wellFormed : ∀ es, p.environment = some es → ∀ e ∈ es, e.WellFormed
  attributePatches_sorted : ∀ d, p.attributePatches = some d → d.Sorted
  attributePatches_wellFormed : ∀ d, p.attributePatches = some d → ∀ e ∈ d, e.2.WellFormed

def mapTexts (f : String → String) (p : Patcher) : Patcher where
  labels := p.labels.map (Dict.mapValues f)
  podLabels := p.podLabels.map (Dict.mapValues f)
  annotations := p.annotations.map (Dict.mapValues f)
  podAnnotations := p.podAnnotations.map (Dict.mapValues f)
  environment := p.environment.map (List.map (Variable.mapTexts f))
  attributePatches := p.attributePatches.map (Dict.mapValues (AttributePatch.mapTexts f))

theorem sorted_mapValues {α β : Type} {f : α → β} {t : Option (Dict α)}
    (h : ∀ d, t = some d → d.Sorted) : ∀ d, t.map (Dict.mapValues f) = some d → d.Sorted := by
  intro d hd
  obtain ⟨d', hd', rfl⟩ := Option.map_eq_some_iff.1 hd
  exact (h d' hd').mapValues f

theorem WellFormed.mapTexts {p : Patcher} (h : p.WellFormed) (f : String → String) :
    (p.mapTexts f).WellFormed where
  labels_sorted := sorted_mapValues h.labels_sorted
  podLabels_sorted := sorted_mapValues h.podLabels_sorted
  annotations_sorted := sorted_mapValues h.annotations_sorted
  podAnnotations_sorted := sorted_mapValues h.podAnnotations_sorted
  environment_wellFormed es hes e he := by
    obtain ⟨es', hes', rfl⟩ := Option.map_eq_some_iff.1 hes
    obtain ⟨e', he', rfl⟩ := List.mem_map.1 he
    exact (h.environment_wellFormed es' hes' e' he').mapTexts f
  attributePatches_sorted := sorted_mapValues h.attributePatches_sorted
  attributePatches_wellFormed d hd e he := by
    obtain ⟨d', hd', rfl⟩ := Option.map_eq_some_iff.1 hd
    obtain ⟨e', he', rfl⟩ := List.mem_map.1 he
    exact (h.attributePatches_wellFormed d' hd' e' he').mapTexts f

def slots (p : Patcher) : Slots :=
  [("labels", p.labels.map ofStringDict), ("podLabels", p.podLabels.map ofStringDict),
    ("annotations", p.annotations.map ofStringDict),
    ("podAnnotations", p.podAnnotations.map ofStringDict),
    ("environments", p.environment.map fun es => .array (es.map Variable.toJson)),
    ("jsonPatcher", p.attributePatches.map fun ps =>
      ofDict (Dict.mapValues AttributePatch.toJson ps))]

theorem toJson_eq_slots (p : Patcher) : p.toJson = p.slots.json := by
  rw [Slots.json_eq_record]
  simp [toJson, slots, Json.fieldOf, Function.comp_def]

theorem toJson_mapTexts (f : String → String) (hf : ∀ t, f t = "" ↔ t = "") (p : Patcher) :
    (p.mapTexts f).toJson = p.toJson.mapTexts f := by
  have hstrings : ∀ d : Dict String,
      (ofStringDict d).mapTexts f = ofStringDict (d.mapValues f) := by
    intro d
    simp [ofStringDict, Json.mapTexts, mapMembers_eq_map, Dict.mapValues]
  have henvironment : ∀ es : List Variable, (array (es.map Variable.toJson)).mapTexts f =
      array ((es.map (Variable.mapTexts f)).map Variable.toJson) := by
    intro es
    simp [Json.mapTexts, mapItems_eq_map, Variable.toJson_mapTexts f hf]
  have hpatches : ∀ d : Dict AttributePatch,
      (ofDict (d.mapValues AttributePatch.toJson)).mapTexts f =
        ofDict ((d.mapValues (AttributePatch.mapTexts f)).mapValues AttributePatch.toJson) := by
    intro d
    simp [ofDict, Json.mapTexts, mapMembers_eq_map, Dict.mapValues, AttributePatch.toJson_mapTexts]
  rw [toJson_eq_slots, toJson_eq_slots, Slots.mapTexts_json]
  simp [slots, mapTexts, Function.comp_def, hstrings, henvironment, hpatches]

theorem nodup_slots (p : Patcher) : (p.slots.map Prod.fst).Nodup := by
  change form.names.Nodup
  decide

theorem texts?_tree {p : Patcher} {name : String} {t : Option (Dict String)}
    (hmem : (name, t.map ofStringDict) ∈ p.slots) (hsorted : ∀ d, t = some d → d.Sorted) :
    (p.slots.fields (treeAt 1)).optional? name (dict? text?) = some t := by
  refine Slots.optional?_fields p.nodup_slots hmem fun d hd => ?_
  rw [ofStringDict, optional?_object, dict?_tree (by decide) (hsorted d hd) fun e _ => rfl]
  rfl

theorem read?_tree {p : Patcher} (h : p.WellFormed) : read? (.yaml 0 p.toJson.tree) = some p := by
  have hrecord : record? form (.yaml 0 p.slots.json.tree) = some (p.slots.fields (treeAt 1)) :=
    Slots.record?_tree (by decide) rfl (by decide)
  have hlabels : (p.slots.fields (treeAt 1)).optional? "labels" (dict? text?) = some p.labels :=
    texts?_tree (by simp [slots]) h.labels_sorted
  have hpodLabels : (p.slots.fields (treeAt 1)).optional? "podLabels" (dict? text?) =
      some p.podLabels := texts?_tree (by simp [slots]) h.podLabels_sorted
  have hannotations : (p.slots.fields (treeAt 1)).optional? "annotations" (dict? text?) =
      some p.annotations := texts?_tree (by simp [slots]) h.annotations_sorted
  have hpodAnnotations : (p.slots.fields (treeAt 1)).optional? "podAnnotations" (dict? text?) =
      some p.podAnnotations := texts?_tree (by simp [slots]) h.podAnnotations_sorted
  have henvironment : (p.slots.fields (treeAt 1)).optional? "environments" (list? Variable.read?) =
      some p.environment := by
    have hmem : ("environments", p.environment.map fun es => array (es.map Variable.toJson)) ∈
        p.slots := by simp [slots]
    refine Slots.optional?_fields p.nodup_slots hmem fun es hes => ?_
    rw [optional?_array, list?_tree (by decide) fun e he =>
      Variable.read?_tree (h.environment_wellFormed es hes e he) (by decide)]
    rfl
  have hpatches : (p.slots.fields (treeAt 1)).optional? "jsonPatcher" (dict? AttributePatch.read?) =
      some p.attributePatches := by
    have hmem : ("jsonPatcher", p.attributePatches.map fun ps =>
        ofDict (Dict.mapValues AttributePatch.toJson ps)) ∈ p.slots := by simp [slots]
    refine Slots.optional?_fields p.nodup_slots hmem fun d hd => ?_
    rw [ofDict, optional?_object, dict?_tree (by decide) (h.attributePatches_sorted d hd) fun e he =>
      AttributePatch.read?_tree (h.attributePatches_wellFormed d hd e he) (by decide)]
    rfl
  rw [toJson_eq_slots, read?, hrecord]
  simp only [Option.bind_eq_bind, Option.bind_some, hlabels, hpodLabels, hannotations,
    hpodAnnotations, henvironment, hpatches]
  rfl

theorem mem_slots {p : Patcher} {k : String} {v : Json} (h : (k, some v) ∈ p.slots) :
    ((k = "labels" ∨ k = "podLabels" ∨ k = "annotations" ∨ k = "podAnnotations") ∧
        ∃ d, v = ofStringDict d) ∨
      (k = "environments" ∧ ∃ es, p.environment = some es ∧ v = array (es.map Variable.toJson)) ∨
      (k = "jsonPatcher" ∧ ∃ ps, p.attributePatches = some ps ∧
        v = ofDict (Dict.mapValues AttributePatch.toJson ps)) := by
  have htexts : ∀ t : Option (Dict String), some v = t.map ofStringDict →
      ∃ d, v = ofStringDict d := by
    intro t ht
    obtain ⟨d, -, rfl⟩ := Option.map_eq_some_iff.1 ht.symm
    exact ⟨d, rfl⟩
  simp only [slots, List.mem_cons, Prod.mk.injEq, List.not_mem_nil, or_false] at h
  rcases h with ⟨rfl, h⟩ | ⟨rfl, h⟩ | ⟨rfl, h⟩ | ⟨rfl, h⟩ | ⟨rfl, h⟩ | ⟨rfl, h⟩
  · exact .inl ⟨.inl rfl, htexts _ h⟩
  · exact .inl ⟨.inr (.inl rfl), htexts _ h⟩
  · exact .inl ⟨.inr (.inr (.inl rfl)), htexts _ h⟩
  · exact .inl ⟨.inr (.inr (.inr rfl)), htexts _ h⟩
  · obtain ⟨es, hes, rfl⟩ := Option.map_eq_some_iff.1 h.symm
    exact .inr (.inl ⟨rfl, es, hes, rfl⟩)
  · obtain ⟨ps, hps, rfl⟩ := Option.map_eq_some_iff.1 h.symm
    exact .inr (.inr ⟨rfl, ps, hps, rfl⟩)

theorem depth_toJson_le {p : Patcher} (h : p.WellFormed) : p.toJson.depth ≤ 128 := by
  rw [toJson_eq_slots]
  refine Slots.depth_json_le fun k v hmem => ?_
  rcases mem_slots hmem with ⟨-, d, rfl⟩ | ⟨-, es, hes, rfl⟩ | ⟨-, ps, hps, rfl⟩
  · refine Nat.succ_le_succ ((depthMembers_le_iff _ 126).2 fun e he => ?_)
    obtain ⟨e', -, rfl⟩ := List.mem_map.1 he
    exact Nat.zero_le 126
  · refine Nat.succ_le_succ ((depthItems_le_iff _ 126).2 fun x hx => ?_)
    obtain ⟨e, he, rfl⟩ := List.mem_map.1 hx
    exact Variable.depth_toJson_le (h.environment_wellFormed es hes e he)
  · refine Nat.succ_le_succ ((depthMembers_le_iff _ 126).2 fun e he => ?_)
    obtain ⟨e', he', rfl⟩ := List.mem_map.1 he
    exact AttributePatch.depth_toJson_le (h.attributePatches_wellFormed ps hps e' he')

theorem covers_toJson (p : Patcher) : Covers form p.toJson := by
  rw [toJson_eq_slots]
  refine Slots.covers_json nofun fun k v hmem => ?_
  rcases mem_slots hmem with ⟨hk, d, rfl⟩ | ⟨rfl, es, -, rfl⟩ | ⟨rfl, ps, -, rfl⟩
  · have hwhole : form.member k = .whole := by
      rcases hk with rfl | rfl | rfl | rfl <;> rfl
    rw [hwhole]
    exact (covers_whole _).1
  · refine ⟨nofun, (coversItems_each_iff _).2 fun x hx => ?_⟩
    obtain ⟨e, -, rfl⟩ := List.mem_map.1 hx
    exact Variable.covers_toJson e
  · refine ⟨nofun, (coversMembers_iff _).2 fun e he => ?_⟩
    obtain ⟨e', -, rfl⟩ := List.mem_map.1 he
    exact AttributePatch.covers_toJson e'.2

theorem wellFormed_of_read? {d : Document} {p : Patcher} (hd : Within Held 0 d)
    (h : read? d = some p) : p.WellFormed := by
  obtain ⟨fields, hrecord, h⟩ := Option.bind_eq_some_iff.1 h
  have hfields := hd.record? hrecord
  have htable : ∀ {α : Type} {read : Document → Option α} {name : String} {t : Option (Dict α)},
      fields.optional? name (dict? read) = some t → ∀ d, t = some d → d.Sorted := by
    rintro α read name t ht d rfl
    obtain ⟨d', hd', ht⟩ := Within.optionalField? hfields ht
    exact (hd'.dict? (hd'.optional? ht) fun _ _ _ _ => trivial).1
  obtain ⟨labels, hlabels, h⟩ := Option.bind_eq_some_iff.1 h
  obtain ⟨podLabels, hpodLabels, h⟩ := Option.bind_eq_some_iff.1 h
  obtain ⟨annotations, hannotations, h⟩ := Option.bind_eq_some_iff.1 h
  obtain ⟨podAnnotations, hpodAnnotations, h⟩ := Option.bind_eq_some_iff.1 h
  obtain ⟨environment, henvironment, h⟩ := Option.bind_eq_some_iff.1 h
  obtain ⟨patches, hpatches, h⟩ := Option.bind_eq_some_iff.1 h
  obtain rfl := Option.some.inj h
  refine ⟨htable hlabels, htable hpodLabels, htable hannotations, htable hpodAnnotations, ?_,
    htable hpatches, ?_⟩
  · rintro es rfl
    obtain ⟨d', hd', hes⟩ := Within.optionalField? hfields henvironment
    exact hd'.list? (hd'.optional? hes) fun d e hd he => Variable.wellFormed_of_read? hd he
  · rintro ps rfl
    obtain ⟨d', hd', hps⟩ := Within.optionalField? hfields hpatches
    exact (hd'.dict? (hd'.optional? hps) fun d e hd he =>
      AttributePatch.wellFormed_of_read? hd he).2

theorem wellFormed_of_ofJsonText? {text : String} {p : Patcher}
    (h : schema.ofJsonText? text = some p) : p.WellFormed := by
  obtain ⟨j, hj, h⟩ := Option.bind_eq_some_iff.1 h
  exact wellFormed_of_read? (.json (Nat.le_refl 0) (held_of_readAs? hj)) h

theorem ofYamlText?_toJson_iff {p : Patcher} (h : p.WellFormed) :
    schema.ofYamlText? p.toJson.text = some p ↔ p.toJson.isPortable = true := by
  have hdepth := depth_toJson_le h
  have hlimit : Yaml.Tree.depthLimit = 128 := rfl
  exact Schema.ofYamlText?_eq_some_iff ⟨_, rfl⟩
    (toJson_mapTexts _ Yaml.Scalar.content_eq_empty_iff p) (read?_tree h)
    (read?_tree (h.mapTexts _)) (by omega) (covers_toJson p)

end Patcher

end ResourceGraph
