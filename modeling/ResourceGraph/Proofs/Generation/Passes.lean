import ResourceGraph.Generation.Finish
import ResourceGraph.Proofs.Outcome

namespace ResourceGraph

/-- The id and the type of a resource, and whether it is marked as workload. -/
def Resource.face (r : Resource) : String × ResourceType × Bool := (r.id, r.type, r.isWorkload)

theorem Resource.map_id_of_map_face {xs ys : List Resource}
    (h : xs.map Resource.face = ys.map Resource.face) :
    xs.map Resource.id = ys.map Resource.id := by
  have hfst := congrArg (List.map Prod.fst) h
  rwa [List.map_map, List.map_map] at hfst

theorem Resource.face_of_note (r : Resource) {note : String} (value : Json)
    (h : workloadMark ≠ note) :
    Resource.face { r with extensions := r.extensions.insert note value } = r.face := by
  simp only [face, isWorkload, Dict.get?_insert_of_ne _ _ h]

theorem Resource.face_withHealthPolicy (r : Resource) (p : HealthPolicy) :
    (r.withHealthPolicy p).face = r.face :=
  r.face_of_note (.object p.fields) (by decide)

theorem Resource.face_markImported (imported : Dict String) (r : Resource) :
    (r.markImported imported).face = r.face := by
  unfold markImported
  split
  · rfl
  · next target _ => exact r.face_of_note (.string target) (by decide)

theorem KindOrder.face_orderOne (kinds : KindOrder) (resources : List Resource) (r : Resource) :
    (kinds.orderOne resources r).face = r.face := by
  unfold orderOne
  split <;> rfl

theorem KindOrder.order_map_face (kinds : KindOrder) (resources : List Resource) :
    (kinds.order resources).map Resource.face = resources.map Resource.face := by
  rw [order, List.map_map]
  exact List.map_congr_left fun r _ => kinds.face_orderOne resources r

namespace Patcher

theorem face_of_patchStructure {p : Patcher} {r r' : Resource} (h : p.patchStructure r = .ok r') :
    r'.face = r.face := by
  unfold patchStructure at h
  obtain ⟨tables, -, h⟩ := Except.bind_eq_ok_iff.mp h
  obtain ⟨attributes, -, h⟩ := Except.bind_eq_ok_iff.mp h
  rw [← Except.pure_eq_ok_iff.mp h]
  rfl

theorem patchAt_map_face {p : Patcher} {i : Nat} {resources patched : List Resource}
    (h : p.patchAt i resources = .ok patched) :
    patched.map Resource.face = resources.map Resource.face := by
  induction resources generalizing i patched with
  | nil => cases i <;> (obtain rfl := Except.ok.inj h; rfl)
  | cons r rest ih =>
      cases i with
      | zero =>
          obtain ⟨r', hr, rfl⟩ := Except.map_eq_ok_iff.mp h
          rw [List.map_cons, List.map_cons, face_of_patchStructure hr]
      | succ i =>
          obtain ⟨rest', hrest, rfl⟩ := Except.map_eq_ok_iff.mp h
          rw [List.map_cons, List.map_cons, ih hrest]

end Patcher

namespace AttributePatch

theorem apply_map_face {p : AttributePatch} {id : String} {resources patched : List Resource}
    (h : p.apply id resources = .ok patched) :
    patched.map Resource.face = resources.map Resource.face := by
  induction resources generalizing patched with
  | nil =>
      obtain rfl := Except.ok.inj h
      rfl
  | cons r rest ih =>
      rw [apply] at h
      split at h
      · obtain ⟨attributes, -, rfl⟩ := Except.map_eq_ok_iff.mp h
        rfl
      · obtain ⟨rest', hrest, rfl⟩ := Except.map_eq_ok_iff.mp h
        rw [List.map_cons, List.map_cons, ih hrest]

theorem applyAll_map_face {patches : Dict AttributePatch} {resources patched : List Resource}
    (h : applyAll patches resources = .ok patched) :
    patched.map Resource.face = resources.map Resource.face := by
  induction patches generalizing resources with
  | nil =>
      obtain rfl := Except.ok.inj h
      rfl
  | cons e rest ih =>
      obtain ⟨between, happly, hrest⟩ := Except.bind_eq_ok_iff.mp h
      rw [ih hrest, apply_map_face happly]

end AttributePatch

namespace Patcher

theorem patch_map_face {p : Patcher} {workload : Option Nat} {resources patched : List Resource}
    (h : p.patch workload resources = .ok patched) :
    patched.map Resource.face = resources.map Resource.face := by
  cases workload with
  | none => exact AttributePatch.applyAll_map_face h
  | some i =>
      obtain ⟨between, hstructure, hattributes⟩ := Except.bind_eq_ok_iff.mp h
      rw [AttributePatch.applyAll_map_face hattributes, patchAt_map_face hstructure]

theorem patchAll_map_face {workload : Option Nat} {patchers : List Patcher}
    {resources patched : List Resource} (h : patchAll workload patchers resources = .ok patched) :
    patched.map Resource.face = resources.map Resource.face := by
  induction patchers generalizing resources with
  | nil =>
      obtain rfl := Except.ok.inj h
      rfl
  | cons p rest ih =>
      obtain ⟨between, hpatch, hrest⟩ := Except.bind_eq_ok_iff.mp h
      rw [ih hrest, patch_map_face hpatch]

end Patcher

theorem Orderer.run_eq_ok_iff {orderer : Orderer} {resources ordered : List Resource} :
    orderer.run resources = .ok ordered ↔
      orderer resources = .ok ordered ∧
        (ordered.map Resource.id).Perm (resources.map Resource.id) := by
  unfold Orderer.run
  rw [Except.bind_eq_ok_iff]
  constructor
  · rintro ⟨answer, hrun, h⟩
    split at h
    · exact nomatch h
    · next hperm =>
      obtain rfl := Except.pure_eq_ok_iff.mp h
      exact ⟨hrun, List.isPerm_iff.mp (by simpa using hperm)⟩
  · rintro ⟨hrun, hperm⟩
    refine ⟨ordered, hrun, ?_⟩
    rw [List.isPerm_iff.mpr hperm]
    rfl

theorem Plan.exists_settled {plan : Plan} {orderer : Orderer} {a : ModuleResults}
    {finished : List Resource} (h : plan.finish orderer a = .ok finished) :
    ∃ settled, settled.map Resource.face = (plan.collected a).map Resource.face ∧
      orderer settled = .ok finished ∧
      (finished.map Resource.id).Perm (settled.map Resource.id) := by
  unfold finish at h
  obtain ⟨patched, hpatch, hrun⟩ := Except.bind_eq_ok_iff.mp h
  refine ⟨_, ?_, Orderer.run_eq_ok_iff.mp hrun⟩
  rw [List.map_map, ← Patcher.patchAll_map_face hpatch]
  exact List.map_congr_left fun r _ => r.face_markImported plan.imported

theorem Plan.finish_map_face {plan : Plan} {kinds : KindOrder} {a : ModuleResults}
    {finished : List Resource} (h : plan.finish (.ofKinds kinds) a = .ok finished) :
    finished.map Resource.face = (plan.collected a).map Resource.face := by
  obtain ⟨settled, hface, horder, -⟩ := Plan.exists_settled h
  obtain rfl := Except.ok.inj horder
  rw [KindOrder.order_map_face, hface]

end ResourceGraph
