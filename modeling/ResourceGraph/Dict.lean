/-!
Tables keyed by text. A table is kept as a list of entries whose keys increase strictly in code
point order; the order of the entries is therefore never a choice of the program that built it.
Main statements: what `get?` answers after `insert` and `erase`, and that both keep the order.
-/

namespace ResourceGraph

/-- Entries by key. All operations of this module keep the keys strictly increasing. -/
abbrev Dict (β : Type u) := List (String × β)

namespace Dict

variable {α : Type u} {β : Type v}

def empty : Dict β := []

def get? : Dict β → String → Option β
  | [], _ => none
  | (k', v) :: rest, k => if k' = k then some v else get? rest k

def contains (d : Dict β) (k : String) : Bool := (d.get? k).isSome

/-- Replace the value of a key, or place a new entry before the first greater key. -/
def insert : Dict β → String → β → Dict β
  | [], k, v => [(k, v)]
  | (k', v') :: rest, k, v =>
      if k = k' then (k, v) :: rest
      else if k < k' then (k, v) :: (k', v') :: rest
      else (k', v') :: insert rest k v

def erase (d : Dict β) (k : String) : Dict β := d.filter fun e => e.1 ≠ k

def keys (d : Dict β) : List String := d.map Prod.fst

def values (d : Dict β) : List β := d.map Prod.snd

def mapValues (f : α → β) (d : Dict α) : Dict β := d.map fun e => (e.1, f e.2)

/-- Later entries win over earlier ones with the same key. -/
def ofList (entries : List (String × β)) : Dict β :=
  entries.foldl (fun d e => insert d e.1 e.2) []

/-- All entries of `upper`, and those of `lower` that it does not mention. -/
def overlay (lower upper : Dict β) : Dict β :=
  upper.foldl (fun d e => insert d e.1 e.2) lower

def Sorted (d : Dict β) : Prop := d.Pairwise fun a b => a.1 < b.1

@[simp] theorem get?_nil (k : String) : get? ([] : Dict β) k = none := rfl

theorem get?_cons (e : String × β) (d : Dict β) (k : String) :
    get? (e :: d) k = if e.1 = k then some e.2 else get? d k := rfl

@[simp] theorem get?_insert_self (d : Dict β) (k : String) (v : β) :
    get? (insert d k v) k = some v := by
  fun_induction insert d k v with
  | case1 => simp [get?]
  | case2 => simp [get?]
  | case3 => simp [get?]
  | case4 k' v' rest k v hne hlt ih => rw [get?, if_neg (Ne.symm hne), ih]

theorem get?_insert_of_ne (d : Dict β) {k k' : String} (v : β) (h : k' ≠ k) :
    get? (insert d k v) k' = get? d k' := by
  fun_induction insert d k v with
  | case1 => simp [get?, Ne.symm h]
  | case2 => simp [get?, Ne.symm h]
  | case3 => simp [get?, Ne.symm h]
  | case4 _ _ _ _ _ _ _ ih => simp [get?, ih h]

theorem get?_insert (d : Dict β) (k k' : String) (v : β) :
    get? (insert d k v) k' = if k' = k then some v else get? d k' := by
  by_cases h : k' = k
  · rw [if_pos h, h, get?_insert_self]
  · rw [if_neg h, get?_insert_of_ne d v h]

theorem get?_erase (d : Dict β) (k k' : String) :
    get? (erase d k) k' = if k' = k then none else get? d k' := by
  induction d with
  | nil => simp [erase]
  | cons e rest ih =>
      unfold erase at ih ⊢
      by_cases he : e.1 = k <;> by_cases hk : k' = k <;> by_cases hek : e.1 = k' <;>
        simp_all [get?_cons]

@[simp] theorem keys_mapValues (f : α → β) (d : Dict α) : keys (mapValues f d) = keys d := by
  simp [keys, mapValues]

@[simp] theorem get?_mapValues (f : α → β) (d : Dict α) (k : String) :
    get? (mapValues f d) k = (get? d k).map f := by
  induction d with
  | nil => rfl
  | cons e rest ih =>
      have ih' : get? (List.map (fun e => (e.1, f e.2)) rest) k = (get? rest k).map f := ih
      by_cases h : e.1 = k <;> simp [mapValues, get?_cons, h, ih']

theorem sorted_nil : Sorted ([] : Dict β) := List.Pairwise.nil

theorem Sorted.erase {d : Dict β} (h : d.Sorted) (k : String) : (d.erase k).Sorted :=
  List.Pairwise.filter _ h

theorem mem_insert {d : Dict β} {k : String} {v : β} {e : String × β}
    (h : e ∈ insert d k v) : e.1 = k ∨ e ∈ d := by
  fun_induction insert d k v <;> grind

theorem Sorted.insert {d : Dict β} (h : d.Sorted) (k : String) (v : β) :
    (Dict.insert d k v).Sorted := by
  fun_induction Dict.insert d k v with
  | case1 => exact List.pairwise_singleton _ _
  | case2 v' rest k v =>
      exact List.pairwise_cons.2 ⟨(List.pairwise_cons.1 h).1, (List.pairwise_cons.1 h).2⟩
  | case3 k' v' rest k v _ hlt =>
      refine List.pairwise_cons.2 ⟨fun e he => ?_, h⟩
      rcases List.mem_cons.1 he with rfl | he
      · exact hlt
      · exact String.lt_trans hlt ((List.pairwise_cons.1 h).1 e he)
  | case4 k' v' rest k v hne hlt ih =>
      refine List.pairwise_cons.2 ⟨fun e he => ?_, ih (List.pairwise_cons.1 h).2⟩
      rcases mem_insert he with hk | he
      · rw [hk]
        exact Std.lt_of_le_of_ne (Std.not_lt.1 hlt) (Ne.symm hne)
      · exact (List.pairwise_cons.1 h).1 e he

theorem sorted_ofList (entries : List (String × β)) : (ofList entries).Sorted := by
  suffices h : ∀ d : Dict β, d.Sorted →
      (entries.foldl (fun d e => Dict.insert d e.1 e.2) d).Sorted from h [] sorted_nil
  intro d hd
  induction entries generalizing d with
  | nil => exact hd
  | cons e rest ih => exact ih _ (hd.insert e.1 e.2)

end Dict

end ResourceGraph
