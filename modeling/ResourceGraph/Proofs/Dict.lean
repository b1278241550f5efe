import ResourceGraph.Dict

namespace ResourceGraph.Dict

variable {α : Type u} {β : Type v}

theorem get?_eq_find? (d : Dict β) (k : String) :
    get? d k = (d.find? (·.1 == k)).map Prod.snd := by
  induction d with
  | nil => rfl
  | cons e rest ih =>
      rw [get?_cons, List.find?_cons, ih]
      by_cases h : e.1 = k
      · simp [h]
      · have hk : (e.1 == k) = false := beq_eq_false_iff_ne.mpr h
        rw [if_neg h, hk]

theorem get?_eq_none_iff {d : Dict β} {k : String} : get? d k = none ↔ k ∉ keys d := by
  induction d with
  | nil => simp [keys]
  | cons e rest ih =>
      rw [get?_cons]
      by_cases h : e.1 = k
      · simp [h, keys]
      · rw [if_neg h, ih]
        simp [keys, Ne.symm h]

theorem mem_keys_iff {d : Dict β} {k : String} : k ∈ keys d ↔ (get? d k).isSome := by
  rw [Option.isSome_iff_ne_none, Ne, get?_eq_none_iff, Classical.not_not]

theorem mem_of_get?_eq_some {d : Dict β} {k : String} {v : β} (h : get? d k = some v) :
    (k, v) ∈ d := by
  induction d with
  | nil => simp at h
  | cons e rest ih =>
      rw [get?_cons] at h
      split at h
      · next hk =>
        obtain rfl := hk
        obtain rfl := Option.some.inj h
        exact List.mem_cons_self
      · exact List.mem_cons_of_mem _ (ih h)

theorem contains_insert (d : Dict β) (k k' : String) (v : β) :
    (d.insert k v).contains k' = true ↔ k' = k ∨ d.contains k' = true := by
  rw [contains, get?_insert]
  split <;> simp [contains, *]

theorem contains_eq_false_of_forall_lt {d : Dict β} {k : String} (h : ∀ k' ∈ keys d, k' < k) :
    d.contains k = false := by
  have hk : k ∉ keys d := fun hm => String.lt_irrefl k (h k hm)
  simp [contains, get?_eq_none_iff.mpr hk]

theorem insert_of_forall_lt {d : Dict β} {k : String} (v : β) (h : ∀ k' ∈ keys d, k' < k) :
    d.insert k v = d ++ [(k, v)] := by
  induction d with
  | nil => rfl
  | cons e rest ih =>
      obtain ⟨k', v'⟩ := e
      have hk : k' < k := h k' (by simp [keys])
      have hne : k ≠ k' := fun he => String.lt_irrefl k (he ▸ hk)
      have hnlt : ¬ k < k' := fun hlt => String.lt_irrefl k (String.lt_trans hlt hk)
      rw [insert, if_neg hne, if_neg hnlt, ih fun x hx => h x (by simp [keys] at hx ⊢; exact .inr hx)]
      rfl

theorem Sorted.cons_lt {e : String × β} {d : Dict β} (h : Sorted (e :: d)) :
    ∀ k ∈ keys d, e.1 < k := by
  intro k hk
  obtain ⟨e', he', rfl⟩ := List.mem_map.mp hk
  exact (List.pairwise_cons.mp h).1 e' he'

theorem Sorted.tail {e : String × β} {d : Dict β} (h : Sorted (e :: d)) : Sorted d :=
  (List.pairwise_cons.mp h).2

theorem Sorted.get?_tail {e : String × β} {d : Dict β} (h : Sorted (e :: d)) :
    get? d e.1 = none := by
  refine get?_eq_none_iff.mpr fun hmem => ?_
  exact String.lt_irrefl e.1 (h.cons_lt e.1 hmem)

theorem Sorted.keys_pairwise {d : Dict β} (h : Sorted d) : (keys d).Pairwise (· < ·) :=
  List.pairwise_map.mpr h

theorem Sorted.keys_nodup {d : Dict β} (h : Sorted d) : (keys d).Nodup := by
  refine List.Pairwise.imp ?_ h.keys_pairwise
  intro a b hlt he
  exact String.lt_irrefl b (he ▸ hlt)

theorem sorted_of_keys_eq {d : Dict α} {e : Dict β} (h : keys e = keys d) (hd : Sorted d) :
    Sorted e := by
  have hp : (keys e).Pairwise (· < ·) := h ▸ hd.keys_pairwise
  exact List.pairwise_map.mp hp

theorem Sorted.mapValues {d : Dict α} (h : Sorted d) (f : α → β) : Sorted (mapValues f d) :=
  sorted_of_keys_eq (keys_mapValues f d) h

theorem ofList_of_sorted {d : Dict β} (h : Sorted d) : ofList d = d := by
  suffices hs : ∀ pre : Dict β, Sorted (pre ++ d) →
      d.foldl (fun acc e => Dict.insert acc e.1 e.2) pre = pre ++ d from hs [] h
  intro pre hpre
  induction d generalizing pre with
  | nil => simp
  | cons e rest ih =>
      have hlt : ∀ k ∈ keys pre, k < e.1 := by
        intro k hk
        obtain ⟨e', he', rfl⟩ := List.mem_map.mp hk
        exact (List.pairwise_append.mp hpre).2.2 e' he' e List.mem_cons_self
      rw [List.foldl_cons, insert_of_forall_lt e.2 hlt]
      simpa using ih h.tail (pre ++ [e]) (by simpa using hpre)

theorem mem_of_mem_insert {d : Dict β} {k : String} {v : β} {e : String × β}
    (h : e ∈ insert d k v) : e = (k, v) ∨ e ∈ d := by
  induction d with
  | nil => exact .inl (List.mem_singleton.mp h)
  | cons x rest ih =>
      obtain ⟨k', v'⟩ := x
      rw [insert] at h
      split at h
      · rcases List.mem_cons.mp h with rfl | h
        · exact .inl rfl
        · exact .inr (List.mem_cons_of_mem _ h)
      · split at h
        · rcases List.mem_cons.mp h with rfl | h
          · exact .inl rfl
          · exact .inr h
        · rcases List.mem_cons.mp h with rfl | h
          · exact .inr List.mem_cons_self
          · exact (ih h).imp_right (List.mem_cons_of_mem _)

theorem mem_of_mem_ofList {entries : List (String × β)} {e : String × β}
    (h : e ∈ ofList entries) : e ∈ entries := by
  suffices hall : ∀ d : Dict β, e ∈ entries.foldl (fun d e => insert d e.1 e.2) d →
      e ∈ d ∨ e ∈ entries by
    rcases hall [] h with hnil | hmem
    · exact nomatch hnil
    · exact hmem
  intro d hd
  clear h
  induction entries generalizing d with
  | nil => exact .inl hd
  | cons x rest ih =>
      rcases ih _ hd with hmem | hmem
      · rcases mem_of_mem_insert hmem with rfl | hmem
        · exact .inr List.mem_cons_self
        · exact .inl hmem
      · exact .inr (List.mem_cons_of_mem x hmem)

theorem Sorted.get?_of_mem {d : Dict β} (h : Sorted d) {e : String × β} (he : e ∈ d) :
    get? d e.1 = some e.2 := by
  induction d with
  | nil => exact nomatch he
  | cons x rest ih =>
      rw [get?_cons]
      rcases List.mem_cons.mp he with rfl | he
      · rw [if_pos rfl]
      · have hlt : x.1 < e.1 := h.cons_lt e.1 (List.mem_map_of_mem he)
        rw [if_neg fun hk => String.lt_irrefl _ (hk ▸ hlt), ih h.tail he]

theorem Sorted.mem_iff {d : Dict β} (h : Sorted d) {e : String × β} :
    e ∈ d ↔ get? d e.1 = some e.2 :=
  ⟨h.get?_of_mem, mem_of_get?_eq_some⟩

theorem Sorted.ext {d e : Dict β} (hd : Sorted d) (he : Sorted e)
    (h : ∀ k, get? d k = get? e k) : d = e := by
  induction d generalizing e with
  | nil =>
      cases e with
      | nil => rfl
      | cons y e =>
          have hy := he.get?_of_mem List.mem_cons_self
          rw [← h] at hy
          exact nomatch hy
  | cons x d ih =>
      cases e with
      | nil =>
          have hx := hd.get?_of_mem List.mem_cons_self
          rw [h] at hx
          exact nomatch hx
      | cons y e =>
          have hx : x ∈ y :: e :=
            he.mem_iff.mpr ((h x.1).symm.trans (hd.get?_of_mem List.mem_cons_self))
          have hy : y ∈ x :: d :=
            hd.mem_iff.mpr ((h y.1).trans (he.get?_of_mem List.mem_cons_self))
          -- Both tables begin with their least key.
          obtain rfl : x = y := by
            rcases List.mem_cons.mp hx with heq | hx
            · exact heq
            · rcases List.mem_cons.mp hy with heq | hy
              · exact heq.symm
              · have hyx := he.cons_lt x.1 (List.mem_map_of_mem hx)
                have hxy := hd.cons_lt y.1 (List.mem_map_of_mem hy)
                exact absurd (String.lt_trans hxy hyx) (String.lt_irrefl x.1)
          congr 1
          refine ih hd.tail he.tail fun k => ?_
          by_cases hk : x.1 = k
          · rw [← hk, hd.get?_tail, he.get?_tail]
          · have hrest := h k
            rwa [get?_cons, get?_cons, if_neg hk, if_neg hk] at hrest

theorem Sorted.insert_of_get? {d : Dict β} (h : Sorted d) {k : String} {v : β}
    (hget : get? d k = some v) : Dict.insert d k v = d := by
  induction d with
  | nil => exact nomatch hget
  | cons e rest ih =>
      obtain ⟨k', v'⟩ := e
      rw [get?_cons] at hget
      rw [Dict.insert]
      split at hget
      · next hk =>
        obtain rfl : k' = k := hk
        obtain rfl := Option.some.inj hget
        rw [if_pos rfl]
      · next hk =>
        have hlt : k' < k :=
          h.cons_lt k (List.mem_map.mpr ⟨(k, v), mem_of_get?_eq_some hget, rfl⟩)
        have hnlt : ¬ k < k' := fun hgt => String.lt_irrefl k (String.lt_trans hgt hlt)
        rw [if_neg (Ne.symm hk), if_neg hnlt, ih h.tail hget]

theorem erase_of_get?_eq_none {d : Dict β} {k : String} (h : get? d k = none) : d.erase k = d := by
  refine List.filter_eq_self.mpr fun e he => decide_eq_true fun hk => ?_
  exact get?_eq_none_iff.mp h (hk ▸ List.mem_map_of_mem he)

theorem insert_insert (d : Dict β) (k : String) (v w : β) :
    insert (insert d k v) k w = insert d k w := by
  induction d with
  | nil => simp [insert]
  | cons e rest ih =>
      obtain ⟨k', v'⟩ := e
      rw [insert, insert]
      by_cases hk : k = k'
      · rw [if_pos hk, if_pos hk, insert, if_pos rfl]
      · by_cases hlt : k < k'
        · rw [if_neg hk, if_pos hlt, if_neg hk, if_pos hlt, insert, if_pos rfl]
        · rw [if_neg hk, if_neg hlt, if_neg hk, if_neg hlt, insert, if_neg hk, if_neg hlt, ih]

theorem insert_mapValues (f : α → β) (d : Dict α) (k : String) (v : α) :
    insert (mapValues f d) k (f v) = mapValues f (insert d k v) := by
  induction d with
  | nil => rfl
  | cons x rest ih =>
      obtain ⟨k', v'⟩ := x
      simp only [mapValues, List.map_cons, insert] at ih ⊢
      split
      · rfl
      · split
        · rfl
        · rw [ih]
          rfl

theorem get?_overlay (lower : Dict β) {upper : Dict β} (h : Sorted upper) (k : String) :
    get? (overlay lower upper) k = (get? upper k).or (get? lower k) := by
  induction upper generalizing lower with
  | nil => rfl
  | cons e rest ih =>
      change get? (overlay (insert lower e.1 e.2) rest) k = _
      rw [ih _ h.tail, get?_insert, get?_cons]
      by_cases hk : k = e.1
      · subst hk
        rw [h.get?_tail, if_pos rfl, if_pos rfl]
        rfl
      · rw [if_neg hk, if_neg (Ne.symm hk)]

theorem ofList_mapValues (f : α → β) (entries : List (String × α)) :
    ofList (entries.map fun e => (e.1, f e.2)) = mapValues f (ofList entries) := by
  suffices hall : ∀ d : Dict α,
      (entries.map fun e => (e.1, f e.2)).foldl (fun d e => insert d e.1 e.2) (mapValues f d) =
        mapValues f (entries.foldl (fun d e => insert d e.1 e.2) d) from hall []
  induction entries with
  | nil => exact fun d => rfl
  | cons x rest ih =>
      intro d
      rw [List.map_cons, List.foldl_cons, List.foldl_cons, insert_mapValues]
      exact ih _

end ResourceGraph.Dict
