import ResourceGraph.Proofs.Generation.Passes
import ResourceGraph.Proofs.Resource.Untouched

namespace ResourceGraph

namespace AttributePatch

def patchedBy (patches : List AttributePatch) (id : String) (attributes : Dict Json) :
    Except GenerationError (Dict Json) :=
  patches.foldlM (fun attributes p => p.patched id attributes) attributes

def addressedTo (id : String) (patches : Dict AttributePatch) : List AttributePatch :=
  (patches.filter fun e => e.1 = id).map Prod.snd

theorem patchedBy_append (earlier later : List AttributePatch) (id : String)
    (attributes : Dict Json) :
    patchedBy (earlier ++ later) id attributes =
      patchedBy earlier id attributes >>= patchedBy later id :=
  List.foldlM_append

theorem addressedTo_cons (id : String) (e : String × AttributePatch)
    (patches : Dict AttributePatch) :
    addressedTo id (e :: patches) = addressedTo id [e] ++ addressedTo id patches := by
  rw [addressedTo, List.filter_cons]
  split <;> simp [addressedTo, *]

theorem addressedTo_eq_nil {id : String} {patches : Dict AttributePatch}
    (h : id ∉ Dict.keys patches) : addressedTo id patches = [] := by
  rw [addressedTo, List.map_eq_nil_iff, List.filter_eq_nil_iff]
  intro e he hid
  exact h (of_decide_eq_true hid ▸ List.mem_map_of_mem he)

end AttributePatch

/-- The attributes of a resource after patches for its id, where resources with some ids stand
before it. -/
def Resource.attributesAfter (r : Resource) (before : List String)
    (patches : List AttributePatch) : Except GenerationError (Dict Json) :=
  if r.id ∈ before then .ok r.attributes else AttributePatch.patchedBy patches r.id r.attributes

theorem Resource.attributesAfter_nil (r : Resource) (before : List String) :
    r.attributesAfter before [] = .ok r.attributes := by
  rw [attributesAfter, AttributePatch.patchedBy]
  split <;> rfl

theorem Resource.attributesAfter_append {r : Resource} {before : List String}
    {earlier later : List AttributePatch} {between attributes : Dict Json}
    (h : r.attributesAfter before earlier = .ok between)
    (h' : Resource.attributesAfter { r with attributes := between } before later =
      .ok attributes) :
    r.attributesAfter before (earlier ++ later) = .ok attributes := by
  unfold attributesAfter at h h' ⊢
  split
  · next hbefore =>
    rw [if_pos hbefore] at h h'
    rw [h, h']
  · next hbefore =>
    rw [if_neg hbefore] at h h'
    rw [AttributePatch.patchedBy_append, h]
    exact h'

theorem Resource.exists_attributesAfter_append {r : Resource} {i : Nat}
    {resources between patched : List Resource} {earlier later : List AttributePatch}
    (hids : between.map Resource.id = resources.map Resource.id)
    (h : ∃ attributes, between[i]? = some { r with attributes } ∧
      r.attributesAfter ((resources.map Resource.id).take i) earlier = .ok attributes)
    (h' : ∀ attributes, between[i]? = some { r with attributes } →
      ∃ attributes', patched[i]? = some { r with attributes := attributes' } ∧
        Resource.attributesAfter { r with attributes } ((between.map Resource.id).take i) later =
          .ok attributes') :
    ∃ attributes, patched[i]? = some { r with attributes } ∧
      r.attributesAfter ((resources.map Resource.id).take i) (earlier ++ later) =
        .ok attributes := by
  obtain ⟨attributes, hbetween, hearlier⟩ := h
  obtain ⟨attributes', hpatched, hlater⟩ := h' attributes hbetween
  rw [hids] at hlater
  exact ⟨attributes', hpatched, Resource.attributesAfter_append hearlier hlater⟩

namespace AttributePatch

variable {resources patched : List Resource} {i : Nat} {r : Resource}

theorem apply_getElem? {p : AttributePatch} {id : String}
    (h : p.apply id resources = .ok patched) (hr : resources[i]? = some r) :
    ∃ attributes, patched[i]? = some { r with attributes } ∧
      r.attributesAfter ((resources.map Resource.id).take i) (addressedTo r.id [(id, p)]) =
        .ok attributes := by
  induction resources generalizing patched i with
  | nil => simp at hr
  | cons x rest ih =>
      rw [apply] at h
      split at h
      · next hx =>
        obtain ⟨attributes, hpatched, rfl⟩ := Except.map_eq_ok_iff.mp h
        cases i with
        | zero =>
            obtain rfl := Option.some.inj hr
            refine ⟨attributes, rfl, ?_⟩
            rw [Resource.attributesAfter, if_neg (by simp), hx]
            simpa [addressedTo, patchedBy] using hpatched
        | succ i =>
            refine ⟨r.attributes, hr, ?_⟩
            by_cases hid : r.id = id
            · rw [Resource.attributesAfter, if_pos (by simp [hx, hid])]
            · rw [addressedTo_eq_nil (by simpa [Dict.keys] using hid),
                Resource.attributesAfter_nil]
      · next hx =>
        obtain ⟨rest', hrest, rfl⟩ := Except.map_eq_ok_iff.mp h
        cases i with
        | zero =>
            obtain rfl := Option.some.inj hr
            refine ⟨x.attributes, rfl, ?_⟩
            rw [addressedTo_eq_nil (by simpa [Dict.keys] using hx), Resource.attributesAfter_nil]
        | succ i =>
            obtain ⟨attributes, hi, hat⟩ := ih hrest hr
            refine ⟨attributes, hi, ?_⟩
            by_cases hid : r.id = id
            · rw [← hat, Resource.attributesAfter, Resource.attributesAfter]
              congr 1
              simp [hid, Ne.symm hx]
            · rw [addressedTo_eq_nil (by simpa [Dict.keys] using hid),
                Resource.attributesAfter_nil] at hat ⊢
              exact hat

theorem applyAll_getElem? {patches : Dict AttributePatch}
    (h : applyAll patches resources = .ok patched) (hr : resources[i]? = some r) :
    ∃ attributes, patched[i]? = some { r with attributes } ∧
      r.attributesAfter ((resources.map Resource.id).take i) (addressedTo r.id patches) =
        .ok attributes := by
  induction patches generalizing resources r with
  | nil =>
      obtain rfl := Except.ok.inj h
      exact ⟨r.attributes, hr, r.attributesAfter_nil _⟩
  | cons e rest ih =>
      obtain ⟨between, happly, hrest⟩ := Except.bind_eq_ok_iff.mp h
      have hids := Resource.map_id_of_map_face (apply_map_face happly)
      rw [addressedTo_cons]
      exact Resource.exists_attributesAfter_append hids (apply_getElem? happly hr) fun _ => ih hrest

end AttributePatch

namespace Patcher

def addressedTo (id : String) (p : Patcher) : List AttributePatch :=
  AttributePatch.addressedTo id (p.attributePatches.getD [])

def addressees (p : Patcher) : List String := Dict.keys (p.attributePatches.getD [])

variable {p : Patcher} {workload : Option Nat} {resources patched : List Resource} {i : Nat}
  {r : Resource}

theorem patchAt_getElem? {place : Nat} (h : p.patchAt place resources = .ok patched)
    (hi : place ≠ i) : patched[i]? = resources[i]? := by
  induction resources generalizing place patched i with
  | nil => cases place <;> (obtain rfl := Except.ok.inj h; rfl)
  | cons x rest ih =>
      cases place with
      | zero =>
          obtain ⟨x', -, rfl⟩ := Except.map_eq_ok_iff.mp h
          cases i with
          | zero => exact absurd rfl hi
          | succ i => rfl
      | succ place =>
          obtain ⟨rest', hrest, rfl⟩ := Except.map_eq_ok_iff.mp h
          cases i with
          | zero => rfl
          | succ i => exact ih hrest fun he => hi (congrArg Nat.succ he)

theorem patch_getElem? (h : p.patch workload resources = .ok patched)
    (hr : resources[i]? = some r) (hi : workload ≠ some i) :
    ∃ attributes, patched[i]? = some { r with attributes } ∧
      r.attributesAfter ((resources.map Resource.id).take i) (p.addressedTo r.id) =
        .ok attributes := by
  cases workload with
  | none => exact AttributePatch.applyAll_getElem? h hr
  | some place =>
      obtain ⟨between, hstructure, hattributes⟩ := Except.bind_eq_ok_iff.mp h
      rw [← Resource.map_id_of_map_face (patchAt_map_face hstructure)]
      refine AttributePatch.applyAll_getElem? hattributes ?_
      rw [patchAt_getElem? hstructure fun he => hi (congrArg some he), hr]

/-- At every place but that of the workload patchers come to the attribute patches for the resource
there. -/
theorem patchAll_getElem? {patchers : List Patcher}
    (h : patchAll workload patchers resources = .ok patched)
    (hr : resources[i]? = some r) (hi : workload ≠ some i) :
    ∃ attributes, patched[i]? = some { r with attributes } ∧
      r.attributesAfter ((resources.map Resource.id).take i)
        (patchers.flatMap (addressedTo r.id)) = .ok attributes := by
  induction patchers generalizing resources r with
  | nil =>
      obtain rfl := Except.ok.inj h
      exact ⟨r.attributes, hr, r.attributesAfter_nil _⟩
  | cons p rest ih =>
      obtain ⟨between, hpatch, hrest⟩ := Except.bind_eq_ok_iff.mp h
      have hids := Resource.map_id_of_map_face (patch_map_face hpatch)
      rw [List.flatMap_cons]
      exact Resource.exists_attributesAfter_append hids (patch_getElem? hpatch hr hi) fun _ => ih hrest

theorem flatMap_addressedTo_eq_nil {patchers : List Patcher} {id : String}
    (h : ∀ p ∈ patchers, id ∉ p.addressees) : patchers.flatMap (addressedTo id) = [] := by
  rw [List.flatMap_eq_nil_iff]
  exact fun p hp => AttributePatch.addressedTo_eq_nil (h p hp)

end Patcher

theorem Plan.finish_getElem? {plan : Plan} {kinds : KindOrder} {a : ModuleResults}
    {finished : List Resource} (h : plan.finish (.ofKinds kinds) a = .ok finished) {i : Nat}
    {r : Resource} (hr : (plan.collected a)[i]? = some r) (hi : plan.workloadIndex a ≠ some i) :
    ∃ attributes r', finished[i]? = some r' ∧
      r.attributesAfter (((plan.collected a).map Resource.id).take i)
        (a.patchers.flatMap (Patcher.addressedTo r.id)) = .ok attributes ∧
      (Resource.markImported plan.imported { r with attributes }).Untouched r' := by
  unfold finish at h
  obtain ⟨patched, hpatch, hrun⟩ := Except.bind_eq_ok_iff.mp h
  obtain ⟨attributes, hpatched, hattributes⟩ := Patcher.patchAll_getElem? hpatch hr hi
  obtain rfl := Except.ok.inj (Orderer.run_eq_ok_iff.mp hrun).1
  refine ⟨attributes, kinds.orderOne (patched.map (Resource.markImported plan.imported)) _, ?_,
    hattributes, kinds.untouched_orderOne _ _⟩
  rw [KindOrder.order, List.getElem?_map, List.getElem?_map, hpatched]
  rfl

end ResourceGraph
