import ResourceGraph.KindOrder
import ResourceGraph.Resource.Mark

namespace ResourceGraph

/-- A resource and what has become of it, when only its health policy and further dependencies may
differ. -/
structure Resource.Untouched (r r' : Resource) : Prop where
  id_eq : r'.id = r.id
  type_eq : r'.type = r.type
  attributes_eq : r'.attributes = r.attributes
  extensions_eq : ∀ note, note ≠ Resource.healthPolicy →
    r'.extensions.get? note = r.extensions.get? note
  dependsOn_isPrefix : r.dependsOn <+: r'.dependsOn

namespace Resource

variable {r r' r'' : Resource}

theorem Untouched.refl (r : Resource) : r.Untouched r :=
  ⟨rfl, rfl, rfl, fun _ _ => rfl, List.prefix_rfl⟩

theorem Untouched.trans (h : r.Untouched r') (h' : r'.Untouched r'') : r.Untouched r'' where
  id_eq := h'.id_eq.trans h.id_eq
  type_eq := h'.type_eq.trans h.type_eq
  attributes_eq := h'.attributes_eq.trans h.attributes_eq
  extensions_eq note hnote := (h'.extensions_eq note hnote).trans (h.extensions_eq note hnote)
  dependsOn_isPrefix := h.dependsOn_isPrefix.trans h'.dependsOn_isPrefix

theorem untouched_withHealthPolicy (r : Resource) (p : HealthPolicy) :
    r.Untouched (r.withHealthPolicy p) where
  id_eq := rfl
  type_eq := rfl
  attributes_eq := rfl
  extensions_eq _ hnote := Dict.get?_insert_of_ne _ _ hnote
  dependsOn_isPrefix := List.prefix_rfl

end Resource

namespace KindOrder

theorem isPrefix_addMissing (present ids : List String) : present <+: addMissing present ids := by
  induction ids generalizing present with
  | nil => exact List.prefix_rfl
  | cons id rest ih =>
      rw [addMissing]
      split
      · exact ih present
      · exact (List.prefix_append present [id]).trans (ih _)

theorem untouched_orderOne (kinds : KindOrder) (resources : List Resource) (r : Resource) :
    r.Untouched (kinds.orderOne resources r) := by
  unfold orderOne
  split
  · exact .refl r
  · exact ⟨rfl, rfl, rfl, fun _ _ => rfl, isPrefix_addMissing _ _⟩

end KindOrder

end ResourceGraph
