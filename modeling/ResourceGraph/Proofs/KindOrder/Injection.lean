import ResourceGraph.Proofs.Generation.Order

section Lists

variable {α : Type u} [BEq α]

theorem List.eraseDups_induction {motive : List α → Prop} (nil : motive [])
    (cons : ∀ x rest, motive (rest.filter fun y => !y == x) → motive (x :: rest)) (xs : List α) :
    motive xs := by
  induction hn : xs.length using Nat.strongRecOn generalizing xs with
  | _ n ih =>
      cases xs with
      | nil => exact nil
      | cons x rest =>
          have hle := List.length_filter_le (fun y => !y == x) rest
          exact cons x rest (ih _ (by simp at hn; omega) _ rfl)

theorem List.eraseDups_sublist (xs : List α) : xs.eraseDups.Sublist xs := by
  induction xs using List.eraseDups_induction with
  | nil => exact List.Sublist.refl []
  | cons x rest ih =>
      rw [List.eraseDups_cons]
      exact List.Sublist.cons_cons x (ih.trans List.filter_sublist)

theorem List.nodup_eraseDups [LawfulBEq α] (xs : List α) : xs.eraseDups.Nodup := by
  induction xs using List.eraseDups_induction with
  | nil => exact List.nodup_nil
  | cons x rest ih =>
      rw [List.eraseDups_cons]
      refine List.nodup_cons.mpr ⟨?_, ih⟩
      intro hmem
      simpa using List.of_mem_filter (List.mem_eraseDups.mp hmem)

end Lists

namespace ResourceGraph.KindOrder

variable {kinds : KindOrder} {resources : List Resource} {r s : Resource} {n : Nat} {id : String}

instance : Decidable (kinds.Below s r) :=
  decidable_of_iff ((kinds.rank? s).any fun m => (kinds.rank? r).any (m < ·)) <| by
    simp [Below, Option.any_eq_true]

theorem rank?_eq_some_iff :
    kinds.rank? r = some n ↔ r.type = .kubernetes ∧
      ∃ kind, r.kind? = some kind ∧ kinds[n]? = some kind ∧ kind ∉ kinds.take n := by
  unfold rank?
  cases r.type with
  | terraform => simp
  | kubernetes =>
      rw [Option.bind_eq_some_iff]
      simp only [true_and]
      refine exists_congr fun kind => and_congr_right fun _ => ?_
      rw [List.findIdx?_eq_some_iff_getElem]
      constructor
      · rintro ⟨hlt, hkind, hfirst⟩
        refine ⟨by rw [List.getElem?_eq_getElem hlt, eq_of_beq hkind], ?_⟩
        intro hmem
        obtain ⟨j, hj, hjk⟩ := List.mem_take_iff_getElem.mp hmem
        exact hfirst j (by omega) (beq_iff_eq.mpr hjk)
      · rintro ⟨hkind, hfirst⟩
        obtain ⟨hlt, hget⟩ := List.getElem?_eq_some_iff.mp hkind
        refine ⟨hlt, beq_iff_eq.mpr hget, ?_⟩
        intro j hj hjk
        exact hfirst (List.mem_take_iff_getElem.mpr ⟨j, by omega, eq_of_beq hjk⟩)

/-- The ids of the resources whose kinds come before that of `r`, in the order of the graph and each
once, without those that `r` depends on already. -/
def injected (kinds : KindOrder) (resources : List Resource) (r : Resource) : List String :=
  (((resources.filter fun s => kinds.Below s r).map Resource.id).filter (· ∉ r.dependsOn)).eraseDups

theorem addMissing_eq_append (present ids : List String) :
    addMissing present ids = present ++ (ids.filter (· ∉ present)).eraseDups := by
  induction ids generalizing present with
  | nil => simp [addMissing]
  | cons id rest ih =>
      rw [addMissing, ih]
      by_cases hmem : id ∈ present
      · simp [hmem]
      · have hrest : rest.filter (· ∉ present ++ [id]) =
            (rest.filter (· ∉ present)).filter fun x => !x == id := by
          rw [List.filter_filter]
          refine List.filter_congr fun x _ => ?_
          rw [Bool.eq_iff_iff]
          simp [and_comm]
        rw [if_neg (by simpa using hmem), hrest, List.filter_cons_of_pos (by simpa using hmem),
          List.eraseDups_cons, List.append_assoc, List.singleton_append]

theorem idsBelow_eq (h : kinds.rank? r = some n) :
    kinds.idsBelow resources n = (resources.filter fun s => kinds.Below s r).map Resource.id := by
  rw [idsBelow]
  congr 1
  refine List.filter_congr fun s _ => ?_
  rw [Bool.eq_iff_iff]
  simp [Below, h, Option.any_eq_true]

theorem injected_eq_nil (h : kinds.rank? r = none) : kinds.injected resources r = [] := by
  simp [injected, Below, h]

theorem mem_injected_iff :
    id ∈ kinds.injected resources r ↔
      id ∉ r.dependsOn ∧ ∃ s ∈ resources, kinds.Below s r ∧ s.id = id := by
  rw [injected, List.mem_eraseDups, List.mem_filter, and_comm]
  simp [and_assoc]

theorem injected_sublist :
    (kinds.injected resources r).Sublist (resources.map Resource.id) :=
  (List.eraseDups_sublist _).trans
    (List.filter_sublist.trans (List.filter_sublist.map Resource.id))

theorem orderOne_eq (kinds : KindOrder) (resources : List Resource) (r : Resource) :
    kinds.orderOne resources r =
      { r with dependsOn := r.dependsOn ++ kinds.injected resources r } := by
  unfold orderOne
  split
  · next hrank => rw [injected_eq_nil hrank, List.append_nil]
  · next n hrank => rw [addMissing_eq_append, idsBelow_eq hrank, injected]

/-- The pass appends to the dependencies of every resource, at its place, the ids of all resources of
earlier kinds that it lacks, in the order of the graph and each once, and changes nothing else. What
has no rank keeps its dependencies, and no resource comes to depend on it. -/
theorem order_exact (kinds : KindOrder) (resources : List Resource) :
    kinds.order resources =
        (resources.map fun r => { r with dependsOn := r.dependsOn ++ kinds.injected resources r }) ∧
      ∀ r : Resource,
        (kinds.injected resources r).Nodup ∧
        (kinds.injected resources r).Sublist (resources.map Resource.id) ∧
        (∀ id, id ∈ kinds.injected resources r ↔
          id ∉ r.dependsOn ∧ ∃ s ∈ resources, kinds.Below s r ∧ s.id = id) ∧
        (kinds.rank? r = none → kinds.injected resources r = []) ∧
        ∀ n, kinds.rank? r = some n ↔ r.type = .kubernetes ∧
          ∃ kind, r.kind? = some kind ∧ kinds[n]? = some kind ∧ kind ∉ kinds.take n := by
  constructor
  · rw [order]
    exact List.map_congr_left fun r _ => kinds.orderOne_eq resources r
  · intro r
    refine ⟨List.nodup_eraseDups _, injected_sublist, ?_, injected_eq_nil, ?_⟩
    · intro id
      exact mem_injected_iff
    · intro n
      exact rank?_eq_some_iff

/-- Both namespaces share an id; the second kind occurs twice in the order. -/
example : (order ["Namespace", "Service", "Service"] [
      { Resource.new "svc" .kubernetes [("kind", .string "Service")] with dependsOn := ["x"] },
      .new "ns" .kubernetes [("kind", .string "Namespace")], .new "tf" .terraform [],
      .new "ns" .kubernetes [("kind", .string "Namespace")]]).map Resource.dependsOn =
    [["x", "ns"], [], [], []] := by
  decide +kernel

end ResourceGraph.KindOrder
