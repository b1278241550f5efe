import ResourceGraph.ModuleResults
import ResourceGraph.Plugin.Module
import ResourceGraph.Proofs.Outcome
import ResourceGraph.Proofs.Patcher.Reading
import ResourceGraph.Proofs.Resource.Reading

namespace ResourceGraph

theorem Bytes.loop_eq (bs : ByteArray) (i : Nat) (r : List UInt8) :
    ByteArray.toList.loop bs i r = r.reverse ++ bs.data.toList.drop i := by
  fun_induction ByteArray.toList.loop bs i r with
  | case1 i r h ih =>
      have hlt : i < bs.data.toList.length := h
      have hget : bs.get! i = bs.data.toList[i] := getElem!_pos bs.data i h
      rw [ih, List.reverse_cons, List.append_assoc, hget, List.drop_eq_getElem_cons hlt]
      rfl
  | case2 i r h =>
      have hsize : bs.data.toList.length ≤ i := Nat.not_lt.1 h
      rw [List.drop_of_length_le hsize, List.append_nil]

theorem Bytes.text?_ofText (s : String) : (Bytes.ofText s).text? = some s := by
  have hbytes : (⟨(Bytes.ofText s).toArray⟩ : ByteArray) = s.toByteArray := by
    rw [ofText, ByteArray.toList, loop_eq]
    rfl
  rw [Bytes.text?, hbytes, String.fromUTF8?, dif_pos s.isValidUTF8]
  rfl

theorem Schema.ofYamlBytes?_ofText {α : Type} (s : Schema α) (text : String) :
    s.ofYamlBytes? (Bytes.ofText text) = s.ofYamlText? text := by
  rw [ofYamlBytes?, Bytes.text?_ofText]
  rfl

/-- The host decodes a response to these resources and this patcher. -/
structure Response.Carries (response : Response) (key : ModuleKey) (resources : List Resource)
    (patcher : Option Patcher) : Prop where
  resources_eq : response.resources.map (ModuleResults.decodeResource key) = resources.map .ok
  patcher_eq : response.patcher.map (ModuleResults.decodePatcher key) = patcher.map .ok

/-- The error of the host for a response that it cannot decode. Resources are decoded first. -/
def Response.refusal (response : Response) (key : ModuleKey) : GenerationError :=
  if response.resources.all fun bytes => (Resource.schema.ofYamlBytes? bytes).isSome then
    .invocation (.protocol (.malformedPatcher key.text))
  else .invocation (.protocol (.malformedResource key.text))

/-- A resource of a response does not decode, or its patcher does not. -/
structure Response.Refused (response : Response) (key : ModuleKey) (e : GenerationError) :
    Prop where
  not_carries : ¬∃ resources patcher, response.Carries key resources patcher
  error_eq : e = response.refusal key

namespace ModuleResults

/-- Add what a module has generated, without bytes in between. -/
def collect (a : ModuleResults) (fromWorkload : Bool) (policy : Option HealthPolicy)
    (resources : List Resource) (patcher : Option Patcher) : ModuleResults :=
  let a := a.addResources fromWorkload policy resources
  { a with patchers := a.patchers ++ patcher.toList }

variable {key : ModuleKey}

theorem decodeResource_eq_ok_iff {bytes : Bytes} {r : Resource} :
    decodeResource key bytes = .ok r ↔ Resource.schema.ofYamlBytes? bytes = some r := by
  unfold decodeResource
  split
  · next r' h => simp [h]
  · next h => simp [h]

theorem decodePatcher_eq_ok_iff {bytes : Bytes} {p : Patcher} :
    decodePatcher key bytes = .ok p ↔ Patcher.schema.ofYamlBytes? bytes = some p := by
  unfold decodePatcher
  split
  · next p' h => simp [h]
  · next h => simp [h]

theorem add_of_carries {response : Response} {resources : List Resource}
    {patcher : Option Patcher} (h : response.Carries key resources patcher) (a : ModuleResults)
    (workloadKey : Option ModuleKey) (briefing : Briefing) :
    a.add key workloadKey briefing response =
      .ok (a.collect (workloadKey == some key) briefing.healthPolicy resources patcher) := by
  have hpatcher := h.patcher_eq
  rw [add, List.mapM_eq_pure h.resources_eq]
  cases hresponse : response.patcher with
  | none =>
      rw [hresponse] at hpatcher
      obtain rfl := Option.map_eq_none_iff.1 hpatcher.symm
      rw [collect, Option.toList_none, List.append_nil]
      rfl
  | some bytes =>
      rw [hresponse, Option.map_some] at hpatcher
      obtain ⟨p, rfl, hp⟩ := Option.map_eq_some_iff.1 hpatcher.symm
      simp only [← hp]
      rfl

theorem add_eq_ok_iff {a a' : ModuleResults} {workloadKey : Option ModuleKey}
    {briefing : Briefing} {response : Response} :
    a.add key workloadKey briefing response = .ok a' ↔
      ∃ resources patcher, response.Carries key resources patcher ∧
        a.collect (workloadKey == some key) briefing.healthPolicy resources patcher = a' := by
  constructor
  · intro h
    obtain ⟨resources, hresources, h⟩ := Except.bind_eq_ok_iff.mp h
    rw [Except.mapM_eq_ok_iff] at hresources
    cases hpatcher : response.patcher with
    | none =>
        rw [hpatcher] at h
        refine ⟨resources, none, ⟨hresources, by rw [hpatcher]; rfl⟩, ?_⟩
        rw [collect, Option.toList_none, List.append_nil]
        exact Except.pure_eq_ok_iff.mp h
    | some bytes =>
        rw [hpatcher] at h
        obtain ⟨p, hp, h⟩ := Except.bind_eq_ok_iff.mp h
        refine ⟨resources, some p, ⟨hresources, ?_⟩, Except.pure_eq_ok_iff.mp h⟩
        rw [hpatcher, Option.map_some, hp, Option.map_some]
  · rintro ⟨resources, patcher, hcarries, rfl⟩
    exact add_of_carries hcarries a workloadKey briefing

theorem eq_refusal_of_add {a : ModuleResults} {workloadKey : Option ModuleKey}
    {briefing : Briefing} {response : Response} {e : GenerationError}
    (h : a.add key workloadKey briefing response = .error e) : e = response.refusal key := by
  rw [Response.refusal]
  rcases Except.bind_eq_error_iff.mp h with hresources | ⟨resources, hresources, h⟩
  · obtain ⟨bytes, hmem, hbytes⟩ := Except.exists_of_mapM_eq_error hresources
    unfold decodeResource at hbytes
    split at hbytes
    · exact nomatch hbytes
    · next hnone =>
      rw [if_neg, Except.error.inj hbytes]
      intro hall
      have hsome := List.all_eq_true.mp hall bytes hmem
      rw [hnone] at hsome
      exact nomatch hsome
  · rw [Except.mapM_eq_ok_iff] at hresources
    rw [if_pos]
    · cases hpatcher : response.patcher with
      | none =>
          rw [hpatcher] at h
          exact nomatch h
      | some bytes =>
          rw [hpatcher] at h
          rcases Except.bind_eq_error_iff.mp h with h | ⟨p, -, h⟩
          · unfold decodePatcher at h
            split at h
            · exact nomatch h
            · exact (Except.error.inj h).symm
          · exact nomatch h
    · rw [List.all_eq_true]
      intro bytes hmem
      have hdecoded : decodeResource key bytes ∈ resources.map Except.ok :=
        hresources ▸ List.mem_map_of_mem hmem
      obtain ⟨r, -, hr⟩ := List.mem_map.mp hdecoded
      rw [decodeResource_eq_ok_iff.mp hr.symm]
      rfl

theorem add_eq_error_iff {a : ModuleResults} {workloadKey : Option ModuleKey}
    {briefing : Briefing} {response : Response} {e : GenerationError} :
    a.add key workloadKey briefing response = .error e ↔ response.Refused key e := by
  constructor
  · intro h
    refine ⟨?_, eq_refusal_of_add h⟩
    rintro ⟨resources, patcher, carries⟩
    exact nomatch h.symm.trans (add_of_carries carries a workloadKey briefing)
  · rintro ⟨not_carries, rfl⟩
    cases h : a.add key workloadKey briefing response with
    | error e => rw [eq_refusal_of_add h]
    | ok a' =>
        obtain ⟨resources, patcher, carries, -⟩ := add_eq_ok_iff.mp h
        exact absurd ⟨resources, patcher, carries⟩ not_carries

end ModuleResults

namespace Response

variable {resources : List Resource} {patcher : Option Patcher}

theorem carries_encode_iff (key : ModuleKey) (hresources : ∀ r ∈ resources, r.WellFormed)
    (hpatcher : ∀ p ∈ patcher, p.WellFormed) :
    (encode resources patcher).Carries key resources patcher ↔
      (∀ r ∈ resources, r.toJson.isPortable = true) ∧
        ∀ p ∈ patcher, p.toJson.isPortable = true := by
  have hresource : ∀ r ∈ resources,
      ModuleResults.decodeResource key (Bytes.ofText r.toJson.text) = .ok r ↔
        r.toJson.isPortable = true := by
    intro r hr
    rw [ModuleResults.decodeResource_eq_ok_iff, Schema.ofYamlBytes?_ofText,
      Resource.ofYamlText?_toJson_iff (hresources r hr)]
  have hpatch : ∀ p ∈ patcher,
      ModuleResults.decodePatcher key (Bytes.ofText p.toJson.text) = .ok p ↔
        p.toJson.isPortable = true := by
    intro p hp
    rw [ModuleResults.decodePatcher_eq_ok_iff, Schema.ofYamlBytes?_ofText,
      Patcher.ofYamlText?_toJson_iff (hpatcher p hp)]
  constructor
  · rintro ⟨hrs, hps⟩
    refine ⟨fun r hr => (hresource r hr).1 ?_, fun p hp => (hpatch p hp).1 ?_⟩
    · exact List.map_inj_left.1 ((List.map_map ..).symm.trans hrs) r hr
    · obtain rfl := hp
      exact Option.some.inj hps
  · rintro ⟨hrs, hps⟩
    constructor
    · refine (List.map_map ..).trans (List.map_inj_left.2 fun r hr => ?_)
      exact (hresource r hr).2 (hrs r hr)
    · cases patcher with
      | none => rfl
      | some p => exact congrArg some ((hpatch p rfl).2 (hps p rfl))

/-- What a plugin has decoded from JSON and writes again reaches the host unchanged exactly when it
is portable, and the host then adds it as it is. -/
theorem encode_reaches_host_iff (key : ModuleKey)
    (hresources : ∀ r ∈ resources, ∃ text, Resource.schema.ofJsonText? text = some r)
    (hpatcher : ∀ p ∈ patcher, ∃ text, Patcher.schema.ofJsonText? text = some p) :
    ((encode resources patcher).Carries key resources patcher ↔
      (∀ r ∈ resources, r.toJson.isPortable = true) ∧
        ∀ p ∈ patcher, p.toJson.isPortable = true) ∧
    ((encode resources patcher).Carries key resources patcher →
      ∀ (a : ModuleResults) (workloadKey : Option ModuleKey) (briefing : Briefing),
        a.add key workloadKey briefing (encode resources patcher) =
          .ok (a.collect (workloadKey == some key) briefing.healthPolicy resources patcher)) := by
  constructor
  · refine carries_encode_iff key (fun r hr => ?_) fun p hp => ?_
    · obtain ⟨text, htext⟩ := hresources r hr
      exact Resource.wellFormed_of_ofJsonText? htext
    · obtain ⟨text, htext⟩ := hpatcher p hp
      exact Patcher.wellFormed_of_ofJsonText? htext
  · exact fun h a workloadKey briefing => ModuleResults.add_of_carries h a workloadKey briefing

theorem encode_reaches_host_of_accents :
    (encode [⟨"a", .kubernetes, [("k", .string "é\n")], [], []⟩]
      (some ⟨some [("é", "x")], none, none, none, none, none⟩)).Carries ⟨"acme/service@1"⟩
      [⟨"a", .kubernetes, [("k", .string "é\n")], [], []⟩]
      (some ⟨some [("é", "x")], none, none, none, none, none⟩) := by
  refine (encode_reaches_host_iff _ (fun r hr => ?_) fun p hp => ?_).1.2 ⟨?_, ?_⟩
  · obtain rfl := List.mem_singleton.1 hr
    exact ⟨"\x7b\"type\":\"Kubernetes\",\"id\":\"a\",\"attributes\":\x7b\"k\":\"é\\n\"\x7d\x7d",
      by decide +kernel⟩
  · obtain rfl := Option.some.inj hp
    exact ⟨"\x7b\"labels\":\x7b\"é\":\"x\"\x7d\x7d", by decide +kernel⟩
  · decide +kernel
  · rintro p hp
    obtain rfl := Option.some.inj hp
    decide +kernel

/-- A next line in a text becomes a space. -/
theorem not_carries_of_next_line :
    Resource.schema.ofJsonText?
        "\x7b\"id\":\"a\",\"type\":\"Kubernetes\",\"attributes\":\x7b\"k\":\"x\u0085y\"\x7d\x7d" =
      some ⟨"a", .kubernetes, [("k", .string "x\u0085y")], [], []⟩ ∧
    (encode [⟨"a", .kubernetes, [("k", .string "x\u0085y")], [], []⟩] none).Carries
      ⟨"acme/service@1"⟩ [⟨"a", .kubernetes, [("k", .string "x y")], [], []⟩] none ∧
    ¬(encode [⟨"a", .kubernetes, [("k", .string "x\u0085y")], [], []⟩] none).Carries
      ⟨"acme/service@1"⟩ [⟨"a", .kubernetes, [("k", .string "x\u0085y")], [], []⟩] none := by
  have htext : Resource.schema.ofJsonText?
      "\x7b\"id\":\"a\",\"type\":\"Kubernetes\",\"attributes\":\x7b\"k\":\"x\u0085y\"\x7d\x7d" =
        some ⟨"a", .kubernetes, [("k", .string "x\u0085y")], [], []⟩ := by decide +kernel
  have hwellFormed := Resource.wellFormed_of_ofJsonText? htext
  have hcarries : (encode [⟨"a", .kubernetes, [("k", .string "x\u0085y")], [], []⟩] none).Carries
      ⟨"acme/service@1"⟩ [⟨"a", .kubernetes, [("k", .string "x y")], [], []⟩] none := by
    refine ⟨congrArg (fun r => [r]) (ModuleResults.decodeResource_eq_ok_iff.2 ?_), rfl⟩
    rw [Schema.ofYamlBytes?_ofText, Resource.ofYamlText?_toJson hwellFormed]
    decide +kernel
  refine ⟨htext, hcarries, fun h => ?_⟩
  have hsame := List.map_injective_iff.2 (fun _ _ => Except.ok.inj)
    (h.resources_eq.symm.trans hcarries.resources_eq)
  exact absurd hsame (by decide +kernel)

end Response

end ResourceGraph
