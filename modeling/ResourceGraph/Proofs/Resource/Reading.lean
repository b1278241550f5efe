import ResourceGraph.Plugin.Frame
import ResourceGraph.Proofs.Document
import ResourceGraph.Proofs.Document.Decoded
import ResourceGraph.Proofs.Document.Portable
import ResourceGraph.Proofs.Json.Numeral
import ResourceGraph.Resource

namespace ResourceGraph.Resource

open Document Json

structure WellFormed (r : Resource) : Prop where
  attributes_sorted : r.attributes.Sorted
  attributes_regular : ∀ e ∈ r.attributes, e.2.Regular
  extensions_sorted : r.extensions.Sorted
  extensions_regular : ∀ e ∈ r.extensions, e.2.Regular

def mapTexts (f : String → String) (r : Resource) : Resource where
  id := f r.id
  type := r.type
  attributes := r.attributes.mapValues (Json.mapTexts f)
  dependsOn := r.dependsOn.map f
  extensions := r.extensions.mapValues (Json.mapTexts f)

theorem WellFormed.mapTexts {r : Resource} (h : r.WellFormed) (f : String → String) :
    (r.mapTexts f).WellFormed where
  attributes_sorted := h.attributes_sorted.mapValues _
  attributes_regular e he := by
    obtain ⟨e', he', rfl⟩ := List.mem_map.1 he
    exact (h.attributes_regular e' he').mapTexts f
  extensions_sorted := h.extensions_sorted.mapValues _
  extensions_regular e he := by
    obtain ⟨e', he', rfl⟩ := List.mem_map.1 he
    exact (h.extensions_regular e' he').mapTexts f

theorem toJson_mapTexts (f : String → String) (hf : ∀ t : ResourceType, f t.name = t.name)
    (r : Resource) : (r.mapTexts f).toJson = r.toJson.mapTexts f := by
  cases hempty : r.dependsOn.isEmpty <;>
    simp [toJson, mapTexts, Json.mapTexts, Json.record, Json.field, Json.fieldUnless, hempty, hf,
      mapMembers_eq_map, mapItems_eq_map, Json.ofDict, Json.ofStrings, Dict.mapValues]

def slots (r : Resource) : Slots :=
  [("id", some (.string r.id)), ("type", some (.string r.type.name)),
    ("attributes", some (.ofDict r.attributes)),
    ("dependsOn", if r.dependsOn.isEmpty then none else some (.ofStrings r.dependsOn)),
    ("extensions", some (.ofDict r.extensions))]

theorem toJson_eq_slots (r : Resource) : r.toJson = r.slots.json := by
  cases hempty : r.dependsOn.isEmpty <;>
    simp [toJson, slots, Slots.json, Json.record, Json.field, Json.fieldUnless, hempty]

theorem nodup_slots (r : Resource) : (r.slots.map Prod.fst).Nodup := by
  change form.names.Nodup
  decide

theorem readTable?_tree {d : Dict Json} (hsorted : d.Sorted) (hregular : ∀ e ∈ d, e.2.Regular) :
    readTable? (.yaml 1 (tree (Json.ofDict d))) = some d := by
  have hread : dict? json? (.yaml 1 (tree (.object (d.mapValues fun x => x)))) = some d :=
    dict?_tree (by decide) hsorted fun e he => json?_tree (hregular e he) (by decide)
  have hvalues : d.mapValues (fun x => x) = d := List.map_id d
  rw [hvalues] at hread
  rw [readTable?, Json.ofDict, optional?_object, hread]
  rfl

theorem read?_tree {r : Resource} (h : r.WellFormed) :
    read? (.yaml 0 r.toJson.tree) = some r := by
  have hrecord : record? form (.yaml 0 r.slots.json.tree) = some (r.slots.fields (treeAt 1)) :=
    Slots.record?_tree (by decide) rfl (by decide)
  have hid : (r.slots.fields (treeAt 1)).required? "id" text? = some r.id :=
    Slots.required?_fields r.nodup_slots
      (show ("id", some (.string r.id)) ∈ r.slots by simp [slots]) rfl
  have htype : (r.slots.fields (treeAt 1)).required? "type"
      (fun d => d.variant?.bind ResourceType.ofName?) = some r.type :=
    Slots.required?_fields r.nodup_slots
      (show ("type", some (.string r.type.name)) ∈ r.slots by simp [slots])
      (by cases r.type <;> rfl)
  have hattributes : (r.slots.fields (treeAt 1)).withDefault? "attributes" [] readTable? =
      some r.attributes :=
    Slots.withDefault?_fields r.nodup_slots
      (show ("attributes", some (.ofDict r.attributes)) ∈ r.slots by simp [slots]) nofun
      fun j hj => Option.some.inj hj ▸ readTable?_tree h.attributes_sorted h.attributes_regular
  have hdependsOn : (r.slots.fields (treeAt 1)).withDefault? "dependsOn" [] (list? text?) =
      some r.dependsOn := by
    have hmem : ("dependsOn", if r.dependsOn.isEmpty then none else
        some (.ofStrings r.dependsOn)) ∈ r.slots := by simp [slots]
    refine Slots.withDefault?_fields r.nodup_slots hmem ?_ ?_
    · intro hnone
      cases hempty : r.dependsOn with
      | nil => rfl
      | cons x rest => simp [hempty] at hnone
    · intro j hj
      split at hj
      · exact nomatch hj
      · obtain rfl := Option.some.inj hj
        exact list?_tree (by decide) fun x _ => rfl
  have hextensions : (r.slots.fields (treeAt 1)).withDefault? "extensions" [] readTable? =
      some r.extensions :=
    Slots.withDefault?_fields r.nodup_slots
      (show ("extensions", some (.ofDict r.extensions)) ∈ r.slots by simp [slots]) nofun
      fun j hj => Option.some.inj hj ▸ readTable?_tree h.extensions_sorted h.extensions_regular
  rw [toJson_eq_slots, read?, hrecord]
  simp only [Option.bind_eq_bind, Option.bind_some, hid, htype, hattributes, hdependsOn, hextensions]
  rfl

theorem mem_slots {r : Resource} {k : String} {v : Json} (h : (k, some v) ∈ r.slots) :
    (k = "id" ∧ v = .string r.id) ∨ (k = "type" ∧ v = .string r.type.name) ∨
      (k = "attributes" ∧ v = .ofDict r.attributes) ∨
      (k = "dependsOn" ∧ v = .ofStrings r.dependsOn) ∨
      (k = "extensions" ∧ v = .ofDict r.extensions) := by
  cases hempty : r.dependsOn.isEmpty <;> simp [slots, hempty] at h <;> tauto

theorem depth_toJson_le {r : Resource} (h : r.WellFormed) : r.toJson.depth ≤ 127 := by
  have hdict : ∀ d : Dict Json, (∀ e ∈ d, e.2.Regular) → (Json.ofDict d).depth ≤ 126 :=
    fun d hd => Nat.succ_le_succ ((depthMembers_le_iff d 125).2 fun e he => (hd e he).depth_le)
  have hstrings : (Json.ofStrings r.dependsOn).depth ≤ 126 := by
    refine Nat.succ_le_succ ((depthItems_le_iff _ 125).2 fun x hx => ?_)
    obtain ⟨s, -, rfl⟩ := List.mem_map.1 hx
    exact Nat.zero_le 125
  rw [toJson_eq_slots]
  refine Slots.depth_json_le fun k v hmem => ?_
  rcases mem_slots hmem with ⟨-, rfl⟩ | ⟨-, rfl⟩ | ⟨-, rfl⟩ | ⟨-, rfl⟩ | ⟨-, rfl⟩
  · exact Nat.zero_le 126
  · exact Nat.zero_le 126
  · exact hdict _ h.attributes_regular
  · exact hstrings
  · exact hdict _ h.extensions_regular

theorem covers_toJson (r : Resource) : Covers form r.toJson := by
  rw [toJson_eq_slots]
  exact Slots.covers_json_of_whole nofun rfl (by simp [form, Form.record, Form.fields])

theorem readTable?_within {d : Document} {t : Dict Json} (hd : Within Held 1 d)
    (ht : readTable? d = some t) : t.Sorted ∧ ∀ e ∈ t, e.2.Regular := by
  obtain ⟨value, hvalue, rfl⟩ := Option.map_eq_some_iff.1 ht
  cases value with
  | none => exact ⟨Dict.sorted_nil, fun e he => nomatch he⟩
  | some t =>
      exact hd.dict? (hd.optional? hvalue) fun d j hd hj => hd.json? (Nat.le_refl 2) hj

theorem wellFormed_of_read? {d : Document} {r : Resource} (hd : Within Held 0 d)
    (h : read? d = some r) : r.WellFormed := by
  have htable : ∀ {fields : Fields} {name : String} {t : Dict Json},
      (∀ e ∈ fields, Within Held 1 e.2) → fields.withDefault? name [] readTable? = some t →
        t.Sorted ∧ ∀ e ∈ t, e.2.Regular := by
    intro fields name t hfields ht
    rcases Within.withDefault? hfields ht with rfl | ⟨d, hd, ht⟩
    · exact ⟨Dict.sorted_nil, fun e he => nomatch he⟩
    · exact readTable?_within hd ht
  obtain ⟨fields, hrecord, h⟩ := Option.bind_eq_some_iff.1 h
  obtain ⟨id, -, h⟩ := Option.bind_eq_some_iff.1 h
  obtain ⟨type, -, h⟩ := Option.bind_eq_some_iff.1 h
  obtain ⟨attributes, hattributes, h⟩ := Option.bind_eq_some_iff.1 h
  obtain ⟨dependsOn, -, h⟩ := Option.bind_eq_some_iff.1 h
  obtain ⟨extensions, hextensions, h⟩ := Option.bind_eq_some_iff.1 h
  obtain rfl := Option.some.inj h
  have hfields := hd.record? hrecord
  exact ⟨(htable hfields hattributes).1, (htable hfields hattributes).2,
    (htable hfields hextensions).1, (htable hfields hextensions).2⟩

theorem wellFormed_of_ofJsonText? {text : String} {r : Resource}
    (h : schema.ofJsonText? text = some r) : r.WellFormed := by
  obtain ⟨j, hj, h⟩ := Option.bind_eq_some_iff.1 h
  exact wellFormed_of_read? (.json (Nat.le_refl 0) (held_of_readAs? hj)) h

theorem content_name (t : ResourceType) : Yaml.Scalar.content t.name = t.name := by
  cases t <;> exact ((isKept_iff _).1 (by decide)).2

theorem ofYamlText?_toJson {r : Resource} (h : r.WellFormed) :
    schema.ofYamlText? r.toJson.text =
      if r.toJson.isAccepted then some (r.mapTexts Yaml.Scalar.content) else none := by
  have hdepth := depth_toJson_le h
  have hlimit : Yaml.Tree.depthLimit = 128 := rfl
  exact Schema.ofYamlText?_text ⟨_, rfl⟩ (toJson_mapTexts _ content_name r)
    (read?_tree (h.mapTexts _)) (by omega) (covers_toJson r)

theorem ofYamlText?_toJson_iff {r : Resource} (h : r.WellFormed) :
    schema.ofYamlText? r.toJson.text = some r ↔ r.toJson.isPortable = true := by
  have hdepth := depth_toJson_le h
  have hlimit : Yaml.Tree.depthLimit = 128 := rfl
  exact Schema.ofYamlText?_eq_some_iff ⟨_, rfl⟩ (toJson_mapTexts _ content_name r) (read?_tree h)
    (read?_tree (h.mapTexts _)) (by omega) (covers_toJson r)

end ResourceGraph.Resource
