import ResourceGraph.Proofs.Generation.Order

/-!
Resources that arrive in batches. To order all that has arrived after each batch gives the same as to
order everything once: a pass adds to the dependencies of earlier passes only what these lack, and
behind them.
-/

namespace ResourceGraph.KindOrder

theorem addMissing_append (present xs ys : List String) :
    addMissing present (xs ++ ys) = addMissing (addMissing present xs) ys := by
  induction xs generalizing present with
  | nil => rfl
  | cons id rest ih => exact ih _

theorem addMissing_eq_self {present ids : List String} (h : ∀ id ∈ ids, id ∈ present) :
    addMissing present ids = present := by
  induction ids with
  | nil => rfl
  | cons id rest ih =>
      obtain ⟨hid, hrest⟩ := List.forall_mem_cons.mp h
      rw [addMissing, if_pos (List.contains_iff_mem.mpr hid), ih hrest]

theorem addMissing_addMissing_append (present xs ys : List String) :
    addMissing (addMissing present xs) (xs ++ ys) = addMissing present (xs ++ ys) := by
  have hadded : ∀ id ∈ xs, id ∈ addMissing present xs :=
    fun id hid => mem_addMissing_iff.mpr (.inr hid)
  rw [addMissing_append, addMissing_eq_self hadded, addMissing_append]

variable (kinds : KindOrder) (xs ys : List Resource)

theorem idsBelow_append (n : Nat) :
    kinds.idsBelow (xs ++ ys) n = kinds.idsBelow xs n ++ kinds.idsBelow ys n := by
  rw [idsBelow, List.filter_append, List.map_append, idsBelow, idsBelow]

theorem idsBelow_order (n : Nat) : kinds.idsBelow (kinds.order xs) n = kinds.idsBelow xs n := by
  have hrank : (fun r => (kinds.rank? r).any (· < n)) ∘ kinds.orderOne xs =
      fun r => (kinds.rank? r).any (· < n) := by
    funext r
    rw [Function.comp_apply, rank?_orderOne]
  have hid : Resource.id ∘ kinds.orderOne xs = Resource.id := by
    funext r
    exact (kinds.untouched_orderOne xs r).id_eq
  rw [idsBelow, order, List.filter_map, hrank, List.map_map, hid, idsBelow]

theorem orderOne_congr {xs ys : List Resource} (h : ∀ n, kinds.idsBelow xs n = kinds.idsBelow ys n)
    (r : Resource) : kinds.orderOne xs r = kinds.orderOne ys r := by
  unfold orderOne
  split
  · rfl
  · next n _ => rw [h n]

/-- A resource that was ordered among some resources is ordered among more of them as if it came
for the first time. -/
theorem orderOne_orderOne_append (r : Resource) :
    kinds.orderOne (xs ++ ys) (kinds.orderOne xs r) = kinds.orderOne (xs ++ ys) r := by
  cases hrank : kinds.rank? r with
  | none =>
      have hsame : kinds.orderOne xs r = r := by rw [orderOne, hrank]
      rw [hsame]
  | some n =>
      have hordered : kinds.rank? (kinds.orderOne xs r) = some n := by rw [rank?_orderOne, hrank]
      rw [orderOne, hordered, orderOne, hrank, orderOne, hrank]
      simp only [idsBelow_append, addMissing_addMissing_append]

theorem order_order_append : kinds.order (kinds.order xs ++ ys) = kinds.order (xs ++ ys) := by
  have hbelow : ∀ n, kinds.idsBelow (kinds.order xs ++ ys) n = kinds.idsBelow (xs ++ ys) n := by
    intro n
    rw [idsBelow_append, idsBelow_order, idsBelow_append]
  have hone : kinds.orderOne (kinds.order xs ++ ys) = kinds.orderOne (xs ++ ys) :=
    funext (kinds.orderOne_congr hbelow)
  calc kinds.order (kinds.order xs ++ ys)
    _ = (kinds.order xs ++ ys).map (kinds.orderOne (xs ++ ys)) := by rw [order, hone]
    _ = xs.map (kinds.orderOne (xs ++ ys)) ++ ys.map (kinds.orderOne (xs ++ ys)) := by
      rw [List.map_append, order, List.map_map]
      congr 1
      exact List.map_congr_left fun r _ => kinds.orderOne_orderOne_append xs ys r
    _ = kinds.order (xs ++ ys) := by rw [← List.map_append, order]

theorem foldl_order (batches : List (List Resource)) :
    batches.foldl (fun arrived batch => kinds.order (arrived ++ batch)) (kinds.order xs) =
      kinds.order (xs ++ batches.flatten) := by
  induction batches generalizing xs with
  | nil => rw [List.foldl_nil, List.flatten_nil, List.append_nil]
  | cons batch rest ih =>
      rw [List.foldl_cons, order_order_append, ih, List.flatten_cons, List.append_assoc]

/-- To order a part first and all of it later gives the same list as to order all of it once, and
so does any number of passes, one after each batch that arrives. A second pass changes nothing. -/
theorem order_incremental :
    kinds.order (kinds.order xs ++ ys) = kinds.order (xs ++ ys) ∧
      kinds.order (kinds.order xs) = kinds.order xs ∧
      ∀ batches : List (List Resource),
        batches.foldl (fun arrived batch => kinds.order (arrived ++ batch)) [] =
          kinds.order batches.flatten := by
  refine ⟨kinds.order_order_append xs ys, ?_, ?_⟩
  · have htwice := kinds.order_order_append xs []
    rwa [List.append_nil, List.append_nil] at htwice
  · intro batches
    exact kinds.foldl_order [] batches

end ResourceGraph.KindOrder
