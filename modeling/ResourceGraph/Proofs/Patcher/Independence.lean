import ResourceGraph.Proofs.Generation.Places
import ResourceGraph.Proofs.Patcher.Relaxation

namespace ResourceGraph

variable {resources patched : List Resource} {r : Resource} {id : String} {e : GenerationError}

theorem Resource.attributesAfter_append_eq_bind (r : Resource) (before : List String)
    (earlier later : List AttributePatch) :
    r.attributesAfter before (earlier ++ later) =
      r.attributesAfter before earlier >>= fun between =>
        Resource.attributesAfter { r with attributes := between } before later := by
  unfold attributesAfter
  split
  · rfl
  · exact AttributePatch.patchedBy_append earlier later r.id r.attributes

namespace AttributePatch

variable {p : AttributePatch} {patches entries : Dict AttributePatch}

theorem attributesAfter_cons_of_ne {before : List String} {x : String} (hx : x ≠ id) :
    r.attributesAfter (x :: before) (addressedTo r.id [(id, p)]) =
      r.attributesAfter before (addressedTo r.id [(id, p)]) := by
  by_cases hid : r.id = id
  · have hmem : r.id ∈ x :: before ↔ r.id ∈ before := by
      rw [List.mem_cons, hid, or_iff_right (Ne.symm hx)]
    simp only [Resource.attributesAfter, hmem]
  · rw [addressedTo_eq_nil (by simpa [Dict.keys] using hid), Resource.attributesAfter_nil,
      Resource.attributesAfter_nil]

theorem exists_of_apply_eq_error (h : p.apply id resources = .error e) :
    ∃ (i : Nat) (r : Resource), resources[i]? = some r ∧
      r.attributesAfter ((resources.map Resource.id).take i) (addressedTo r.id [(id, p)]) =
        .error e := by
  induction resources with
  | nil => cases h
  | cons x rest ih =>
      rw [apply] at h
      split at h
      · next hx =>
        refine ⟨0, x, rfl, ?_⟩
        rw [List.take_zero, Resource.attributesAfter, if_neg List.not_mem_nil, hx]
        simpa [addressedTo, patchedBy] using Except.map_eq_error_iff.mp h
      · next hx =>
        obtain ⟨i, r, hr, hat⟩ := ih (Except.map_eq_error_iff.mp h)
        refine ⟨i + 1, r, hr, ?_⟩
        rw [List.map_cons, List.take_succ_cons, attributesAfter_cons_of_ne hx]
        exact hat

theorem exists_of_applyAll_eq_error (h : applyAll patches resources = .error e) :
    ∃ (i : Nat) (r : Resource), resources[i]? = some r ∧
      r.attributesAfter ((resources.map Resource.id).take i) (addressedTo r.id patches) =
        .error e := by
  induction patches generalizing resources with
  | nil => cases h
  | cons entry rest ih =>
      rcases Except.bind_eq_error_iff.mp h with happly | ⟨between, happly, hrest⟩
      · obtain ⟨i, r, hr, hat⟩ := exists_of_apply_eq_error happly
        refine ⟨i, r, hr, ?_⟩
        rw [addressedTo_cons, Resource.attributesAfter_append_eq_bind, hat]
        rfl
      · obtain ⟨i, x, hx, hat⟩ := ih hrest
        have hids := Resource.map_id_of_map_face (apply_map_face happly)
        have hlength : between.length = resources.length := by simpa using congrArg List.length hids
        have hlt : i < resources.length := hlength ▸ (List.getElem?_eq_some_iff.mp hx).1
        obtain ⟨attributes, hbetween, hone⟩ :=
          apply_getElem? happly (List.getElem?_eq_getElem hlt)
        obtain rfl := Option.some.inj (hx.symm.trans hbetween)
        refine ⟨i, resources[i], List.getElem?_eq_getElem hlt, ?_⟩
        rw [addressedTo_cons, Resource.attributesAfter_append_eq_bind, hone]
        exact hids ▸ hat

theorem applyAll_eq_ok_iff :
    applyAll patches resources = .ok patched ↔
      patched.length = resources.length ∧ ∀ (i : Nat) (r : Resource), resources[i]? = some r →
        ∃ attributes, patched[i]? = some { r with attributes } ∧
          r.attributesAfter ((resources.map Resource.id).take i) (addressedTo r.id patches) =
            .ok attributes := by
  constructor
  · intro h
    have hids := Resource.map_id_of_map_face (applyAll_map_face h)
    exact ⟨by simpa using congrArg List.length hids, fun i r hr => applyAll_getElem? h hr⟩
  · rintro ⟨hlength, hplaces⟩
    cases hrun : applyAll patches resources with
    | error fault =>
        obtain ⟨i, r, hr, hat⟩ := exists_of_applyAll_eq_error hrun
        obtain ⟨attributes, -, hplace⟩ := hplaces i r hr
        cases hat.symm.trans hplace
    | ok reached =>
        have hids := Resource.map_id_of_map_face (applyAll_map_face hrun)
        have hreached : reached.length = resources.length := by simpa using congrArg List.length hids
        congr 1
        apply List.ext_getElem?
        intro i
        cases hr : resources[i]? with
        | none =>
            have hlast : resources.length ≤ i := List.getElem?_eq_none_iff.mp hr
            rw [List.getElem?_eq_none (by omega), List.getElem?_eq_none (by omega)]
        | some r =>
            obtain ⟨attributes, hplace, hat⟩ := hplaces i r hr
            obtain ⟨attributes', hplace', hat'⟩ := applyAll_getElem? hrun hr
            obtain rfl := Except.ok.inj (hat.symm.trans hat')
            rw [hplace, hplace']

/-- Only the patches for the ids of the resources matter, those of each id in turn. -/
theorem applyAll_congr
    (h : ∀ r ∈ resources, addressedTo r.id entries = addressedTo r.id patches) :
    applyAll entries resources = .ok patched ↔ applyAll patches resources = .ok patched := by
  rw [applyAll_eq_ok_iff, applyAll_eq_ok_iff]
  refine and_congr_right fun _ => forall₂_congr fun i r => imp_congr_right fun hr => ?_
  rw [h r (List.mem_of_getElem? hr)]

theorem addressedTo_of_nodup (h : (Dict.keys patches).Nodup) (id : String) :
    addressedTo id patches = (Dict.get? patches id).toList := by
  induction patches with
  | nil => rfl
  | cons entry rest ih =>
      obtain ⟨hhead, hrest⟩ := List.nodup_cons.mp h
      rw [addressedTo_cons, Dict.get?_cons]
      by_cases hid : entry.1 = id
      · have hnil : addressedTo id rest = [] := addressedTo_eq_nil (hid ▸ hhead)
        rw [if_pos hid, hnil]
        simp [addressedTo, hid]
      · rw [if_neg hid, ih hrest]
        simp [addressedTo, hid]

theorem addressedTo_of_perm (hperm : entries.Perm patches) (h : (Dict.keys patches).Nodup)
    (id : String) : addressedTo id entries = addressedTo id patches := by
  have hfilter : (addressedTo id entries).Perm (addressedTo id patches) :=
    (hperm.filter _).map Prod.snd
  rw [addressedTo_of_nodup h id] at hfilter ⊢
  cases hget : Dict.get? patches id with
  | none =>
      rw [hget] at hfilter
      exact List.perm_nil.mp hfilter
  | some patch =>
      rw [hget] at hfilter
      exact List.perm_singleton.mp hfilter

end AttributePatch

namespace Patcher

def patchFor? (p : Patcher) (id : String) : Option AttributePatch :=
  Dict.get? (p.attributePatches.getD []) id

def ofEntry (id : String) (patch : AttributePatch) : Patcher :=
  ⟨none, none, none, none, none, some [(id, patch)]⟩

/-- Resources before and after patches of which each acts on the first resource of its id as if there
were neither other resources nor other patches. -/
structure ActsAlone (p : Patcher) (resources patched : List Resource) : Prop where
  length_eq : patched.length = resources.length
  spared : ∀ (i : Nat) (r : Resource), resources[i]? = some r →
    r.id ∈ (resources.take i).map Resource.id ∨ p.patchFor? r.id = none → patched[i]? = some r
  reached : ∀ (i : Nat) (r : Resource) (patch : AttributePatch), resources[i]? = some r →
    r.id ∉ (resources.take i).map Resource.id → p.patchFor? r.id = some patch →
      ∃ attributes, patch.patched r.id r.attributes = .ok attributes ∧
        patched[i]? = some { r with attributes }

theorem foldlM_ofEntry (entries : Dict AttributePatch) (resources : List Resource) :
    entries.foldlM (fun resources e => (ofEntry e.1 e.2).patchAttributes resources) resources =
      AttributePatch.applyAll entries resources := by
  induction entries generalizing resources with
  | nil => rfl
  | cons entry rest ih =>
      rw [List.foldlM_cons, AttributePatch.applyAll, patchAttributes, ofEntry, Option.getD_some,
        AttributePatch.applyAll_singleton]
      exact congrArg _ (funext ih)

theorem patchAttributes_eq_ok_iff {p : Patcher}
    (hnodup : (Dict.keys (p.attributePatches.getD [])).Nodup) :
    p.patchAttributes resources = .ok patched ↔ p.ActsAlone resources patched := by
  -- At most one patch is for an id, so that a place sees one patch or none.
  have hpatches := AttributePatch.addressedTo_of_nodup hnodup
  rw [patchAttributes, AttributePatch.applyAll_eq_ok_iff]
  constructor
  · rintro ⟨hlength, hplaces⟩
    refine ⟨hlength, ?_, ?_⟩
    · intro i r hr hspared
      obtain ⟨attributes, hplace, hat⟩ := hplaces i r hr
      rw [← List.map_take, hpatches] at hat
      suffices hsame : attributes = r.attributes by rw [hplace, hsame]
      rcases hspared with hearlier | hnone
      · rw [Resource.attributesAfter, if_pos hearlier] at hat
        exact (Except.ok.inj hat).symm
      · rw [show Dict.get? _ r.id = none from hnone, Option.toList_none,
          Resource.attributesAfter_nil] at hat
        exact (Except.ok.inj hat).symm
    · intro i r patch hr hfirst hpatch
      obtain ⟨attributes, hplace, hat⟩ := hplaces i r hr
      refine ⟨attributes, ?_, hplace⟩
      rw [← List.map_take, hpatches, show Dict.get? _ r.id = some patch from hpatch,
        Resource.attributesAfter, if_neg hfirst] at hat
      simpa [AttributePatch.patchedBy] using hat
  · intro h
    refine ⟨h.length_eq, ?_⟩
    intro i r hr
    rw [← List.map_take, hpatches]
    by_cases hearlier : r.id ∈ (resources.take i).map Resource.id
    · refine ⟨r.attributes, h.spared i r hr (.inl hearlier), ?_⟩
      rw [Resource.attributesAfter, if_pos hearlier]
    · cases hpatch : p.patchFor? r.id with
      | none =>
          refine ⟨r.attributes, h.spared i r hr (.inr hpatch), ?_⟩
          rw [show Dict.get? _ r.id = none from hpatch]
          exact r.attributesAfter_nil _
      | some patch =>
          obtain ⟨attributes, hpatched, hplace⟩ := h.reached i r patch hr hearlier hpatch
          refine ⟨attributes, hplace, ?_⟩
          rw [show Dict.get? _ r.id = some patch from hpatch, Resource.attributesAfter,
            if_neg hearlier]
          simpa [AttributePatch.patchedBy] using hpatched

/-- Patches succeed exactly when each does alone, and then they give what each gives alone. Patches
for ids that no resource has play no part, and patches that are applied one by one may come in any
order. -/
theorem patchAttributes_independent {p : Patcher}
    (hsorted : Dict.Sorted (p.attributePatches.getD [])) (resources patched : List Resource) :
    (p.patchAttributes resources = .ok patched ↔ p.ActsAlone resources patched) ∧
      (∀ q : Patcher, Dict.Sorted (q.attributePatches.getD []) →
        (∀ r ∈ resources, q.patchFor? r.id = p.patchFor? r.id) →
          (q.patchAttributes resources = .ok patched ↔ p.patchAttributes resources = .ok patched)) ∧
      ∀ entries : Dict AttributePatch, entries.Perm (p.attributePatches.getD []) →
        (entries.foldlM (fun resources e => (ofEntry e.1 e.2).patchAttributes resources) resources =
          .ok patched ↔ p.patchAttributes resources = .ok patched) := by
  have hnodup := hsorted.keys_nodup
  refine ⟨patchAttributes_eq_ok_iff hnodup, ?_, ?_⟩
  · intro q hq hsame
    apply AttributePatch.applyAll_congr
    intro r hr
    rw [AttributePatch.addressedTo_of_nodup hq.keys_nodup, AttributePatch.addressedTo_of_nodup hnodup]
    exact congrArg Option.toList (hsame r hr)
  · intro entries hperm
    rw [foldlM_ofEntry]
    apply AttributePatch.applyAll_congr
    intro r _
    exact AttributePatch.addressedTo_of_perm hperm hnodup r.id

def sharing : List Resource :=
  [.new "b" .terraform [("size", .string "s")], .new "a" .kubernetes [("k", .string "old")],
    .new "a" .kubernetes [("k", .string "old")]]

def mixed : Dict AttributePatch :=
  [("a", ⟨.mergePatch, .object [("k", .string "new")]⟩),
    ("b", ⟨.jsonPatch, .array [written "replace" "/size" none (some (.string "m"))]⟩),
    ("c", ⟨.unsupported "StrategicMerge", .null⟩)]

def shared : List Resource :=
  [.new "b" .terraform [("size", .string "m")], .new "a" .kubernetes [("k", .string "new")],
    .new "a" .kubernetes [("k", .string "old")]]

theorem patchAttributes_independent_of_shared_id :
    Dict.Sorted mixed ∧
      ActsAlone ⟨none, none, none, none, none, some mixed⟩ sharing shared ∧
      mixed.reverse.foldlM (fun resources e => (ofEntry e.1 e.2).patchAttributes resources) sharing =
        .ok shared := by
  have hsorted : mixed.Pairwise fun x y => x.1 < y.1 := by decide +kernel
  have hmerge : AttributePatch.payloadJson? ⟨.mergePatch, .object [("k", .string "new")]⟩ =
      some (.object [("k", .string "new")]) := by decide +kernel
  have hreplace : AttributePatch.payloadJson?
      ⟨.jsonPatch, .array [written "replace" "/size" none (some (.string "m"))]⟩ =
        some (.array [written "replace" "/size" none (some (.string "m"))]) := by decide +kernel
  have hfirst : AttributePatch.patched ⟨.mergePatch, .object [("k", .string "new")]⟩ "a"
      [("k", .string "old")] = .ok [("k", .string "new")] := by
    simp only [AttributePatch.patched, hmerge]
    cbv
  have hsecond : AttributePatch.patched
      ⟨.jsonPatch, .array [written "replace" "/size" none (some (.string "m"))]⟩ "b"
        [("size", .string "s")] = .ok [("size", .string "m")] :=
    AttributePatch.patched_of_applyAllRelaxed rfl hreplace (by cbv)
  have hrun : patchAttributes ⟨none, none, none, none, none, some mixed⟩ sharing = .ok shared := by
    simp only [patchAttributes, Option.getD_some, mixed, sharing, AttributePatch.applyAll,
      AttributePatch.apply, Resource.new, String.reduceEq, if_true, if_false, hfirst, hsecond,
      Except.map, bind, Except.bind]
    rfl
  obtain ⟨halone, -, horder⟩ := patchAttributes_independent
    (p := ⟨none, none, none, none, none, some mixed⟩) hsorted sharing shared
  exact ⟨hsorted, halone.mp hrun, (horder mixed.reverse mixed.reverse_perm).mpr hrun⟩

end Patcher

end ResourceGraph
