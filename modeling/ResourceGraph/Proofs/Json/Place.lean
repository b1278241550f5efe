import ResourceGraph.Json.Patch
import ResourceGraph.Proofs.Json.Canonical

namespace ResourceGraph.Json

section Order

variable {token : String} {doc value out : Json}

theorem canonical_insert {members : Dict Json} (h : (object members).canonical = object members)
    (key : String) (hvalue : value.canonical = value) :
    (object (Dict.insert members key value)).canonical =
      object (Dict.insert members key value) := by
  obtain ⟨hsorted, hvalues⟩ := canonical_object_iff.mp h
  apply canonical_object_iff.mpr
  refine ⟨hsorted.insert key value, ?_⟩
  intro e he
  rcases Dict.mem_of_mem_insert he with rfl | he
  · exact hvalue
  · exact hvalues e he

theorem canonical_of_child? (h : doc.canonical = doc) (hchild : doc.child? token = some out) :
    out.canonical = out := by
  cases doc with
  | object members =>
      exact (canonical_object_iff.mp h).2 _ (Dict.mem_of_get?_eq_some hchild)
  | array items =>
      obtain ⟨i, -, hitem⟩ := Option.bind_eq_some_iff.mp hchild
      exact canonical_array_iff.mp h out (List.mem_of_getElem? hitem)
  | _ => cases hchild

theorem canonical_of_at? {path : Pointer} (h : doc.canonical = doc)
    (hat : doc.at? path = some out) : out.canonical = out := by
  induction path generalizing doc with
  | nil =>
      obtain rfl := Option.some.inj hat
      exact h
  | cons token rest ih =>
      obtain ⟨child, hchild, hat⟩ := Option.bind_eq_some_iff.mp hat
      exact ih (canonical_of_child? h hchild) hat

theorem canonical_of_descend? {f : Json → Option Json} (h : doc.canonical = doc)
    (hf : ∀ x y, x.canonical = x → f x = some y → y.canonical = y)
    (hdescend : doc.descend? token f = some out) : out.canonical = out := by
  cases doc with
  | object members =>
      obtain ⟨child, hchild, hdescend⟩ := Option.bind_eq_some_iff.mp hdescend
      obtain ⟨changed, hchanged, hdescend⟩ := Option.bind_eq_some_iff.mp hdescend
      obtain rfl := Option.some.inj hdescend
      exact canonical_insert h token (hf _ _ (canonical_of_child? h hchild) hchanged)
  | array items =>
      obtain ⟨i, -, hdescend⟩ := Option.bind_eq_some_iff.mp hdescend
      obtain ⟨child, hchild, hdescend⟩ := Option.bind_eq_some_iff.mp hdescend
      obtain ⟨changed, hchanged, hdescend⟩ := Option.bind_eq_some_iff.mp hdescend
      obtain rfl := Option.some.inj hdescend
      have hitems := canonical_array_iff.mp h
      apply canonical_array_iff.mpr
      intro x hx
      rcases List.mem_or_eq_of_mem_set hx with hx | rfl
      · exact hitems x hx
      · exact hf _ _ (hitems child (List.mem_of_getElem? hchild)) hchanged
  | _ => cases hdescend

theorem canonical_of_insertChild? (h : doc.canonical = doc) (hvalue : value.canonical = value)
    (hinsert : insertChild? token value doc = some out) : out.canonical = out := by
  cases doc with
  | object members =>
      rw [insertChild?, Option.some.injEq] at hinsert
      subst hinsert
      exact canonical_insert h token hvalue
  | array items =>
      have hitems := canonical_array_iff.mp h
      rw [insertChild?] at hinsert
      split at hinsert
      · obtain rfl := Option.some.inj hinsert
        apply canonical_array_iff.mpr
        intro x hx
        rcases List.mem_append.mp hx with hx | hx
        · exact hitems x hx
        · rw [List.mem_singleton.mp hx]
          exact hvalue
      · split at hinsert
        · next i _ =>
          split at hinsert
          · next hle =>
            obtain rfl := Option.some.inj hinsert
            apply canonical_array_iff.mpr
            intro x hx
            rcases (List.mem_insertIdx hle).mp hx with rfl | hx
            · exact hvalue
            · exact hitems x hx
          · cases hinsert
        · cases hinsert
  | _ => cases hinsert

theorem canonical_of_removeChild? (h : doc.canonical = doc)
    (hremove : doc.removeChild? token = some out) : out.canonical = out := by
  cases doc with
  | object members =>
      obtain ⟨hsorted, hvalues⟩ := canonical_object_iff.mp h
      rw [removeChild?] at hremove
      split at hremove
      · obtain rfl := Option.some.inj hremove
        apply canonical_object_iff.mpr
        refine ⟨hsorted.erase token, ?_⟩
        intro e he
        exact hvalues e (List.mem_of_mem_filter he)
      · cases hremove
  | array items =>
      rw [removeChild?] at hremove
      split at hremove
      · split at hremove
        · obtain rfl := Option.some.inj hremove
          apply canonical_array_iff.mpr
          intro x hx
          exact canonical_array_iff.mp h x (List.mem_of_mem_eraseIdx hx)
        · cases hremove
      · cases hremove
  | _ =>
      rw [removeChild?] at hremove
      · cases hremove
      · rintro _ ⟨⟩
      · rintro _ ⟨⟩

variable {path : Pointer}

theorem canonical_of_addAt? (h : doc.canonical = doc) (hvalue : value.canonical = value)
    (hadd : addAt? value path doc = some out) : out.canonical = out := by
  induction path generalizing doc out with
  | nil =>
      rw [addAt?, Option.some.injEq] at hadd
      exact hadd ▸ hvalue
  | cons token rest ih =>
      cases rest with
      | nil =>
          rw [addAt?] at hadd
          exact canonical_of_insertChild? h hvalue hadd
      | cons next rest =>
          rw [addAt?] at hadd
          exact canonical_of_descend? h (fun x y hx => ih hx) hadd

theorem canonical_of_removeAt? (h : doc.canonical = doc)
    (hremove : removeAt? path doc = some out) : out.canonical = out := by
  induction path generalizing doc out with
  | nil =>
      rw [removeAt?] at hremove
      cases hremove
  | cons token rest ih =>
      cases rest with
      | nil =>
          rw [removeAt?] at hremove
          exact canonical_of_removeChild? h hremove
      | cons next rest =>
          rw [removeAt?] at hremove
          exact canonical_of_descend? h (fun x y hx => ih hx) hremove

theorem canonical_of_replaceAt? (h : doc.canonical = doc) (hvalue : value.canonical = value)
    (hreplace : replaceAt? value path doc = some out) : out.canonical = out := by
  induction path generalizing doc out with
  | nil =>
      rw [replaceAt?, Option.some.injEq] at hreplace
      exact hreplace ▸ hvalue
  | cons token rest ih =>
      rw [replaceAt?] at hreplace
      exact canonical_of_descend? h (fun x y hx => ih hx) hreplace

end Order

section Presence

variable {token : String} {path : Pointer} {doc value out : Json}

theorem exists_child_of_descend? {f : Json → Option Json}
    (h : doc.descend? token f = some out) :
    ∃ child changed, doc.child? token = some child ∧ f child = some changed := by
  cases doc with
  | object members =>
      obtain ⟨child, hchild, h⟩ := Option.bind_eq_some_iff.mp h
      obtain ⟨changed, hchanged, -⟩ := Option.bind_eq_some_iff.mp h
      exact ⟨child, changed, hchild, hchanged⟩
  | array items =>
      obtain ⟨i, hi, h⟩ := Option.bind_eq_some_iff.mp h
      obtain ⟨child, hchild, h⟩ := Option.bind_eq_some_iff.mp h
      obtain ⟨changed, hchanged, -⟩ := Option.bind_eq_some_iff.mp h
      exact ⟨child, changed, Option.bind_eq_some_iff.mpr ⟨i, hi, hchild⟩, hchanged⟩
  | _ => cases h

theorem exists_child_of_removeChild? (h : doc.removeChild? token = some out) :
    ∃ child, doc.child? token = some child := by
  cases doc with
  | object members =>
      rw [removeChild?] at h
      split at h
      · next hcontains => exact Option.isSome_iff_exists.mp hcontains
      · cases h
  | array items =>
      rw [removeChild?] at h
      split at h
      · next i hi =>
        split at h
        · next hlt =>
          exact ⟨items[i], Option.bind_eq_some_iff.mpr ⟨i, hi, List.getElem?_eq_getElem hlt⟩⟩
        · cases h
      · cases h
  | _ =>
      rw [removeChild?] at h
      · cases h
      · rintro _ ⟨⟩
      · rintro _ ⟨⟩

theorem isSome_at?_of_removeAt? (h : removeAt? path doc = some out) : (doc.at? path).isSome := by
  induction path generalizing doc out with
  | nil =>
      rw [removeAt?] at h
      cases h
  | cons token rest ih =>
      cases rest with
      | nil =>
          rw [removeAt?] at h
          obtain ⟨child, hchild⟩ := exists_child_of_removeChild? h
          rw [at?, hchild]
          rfl
      | cons next rest =>
          rw [removeAt?] at h
          obtain ⟨child, changed, hchild, hchanged⟩ := exists_child_of_descend? h
          rw [at?, hchild]
          exact ih hchanged

theorem ne_null_of_addAt? {next : String} (h : addAt? value (next :: path) doc = some out) :
    doc ≠ .null := by
  rintro rfl
  cases path with
  | nil =>
      rw [addAt?] at h
      cases h
  | cons _ _ =>
      rw [addAt?] at h
      cases h

theorem looseIndex?_of_index? {i : Nat} (h : Pointer.index? token = some i) :
    Pointer.looseIndex? token = some i := by
  rw [Pointer.index?] at h
  rw [Pointer.looseIndex?]
  split at h
  · cases h
  · split
    · next hplus =>
      rw [hplus] at h
      cases h
    · exact h

theorem position?_of_index? {i : Nat} (h : Pointer.index? token = some i) (items : List Json) :
    position? token items = some i := by
  have hdash : token ≠ "-" := by
    rintro rfl
    cases h
  rw [position?, if_neg hdash, looseIndex?_of_index? h]

theorem withParents_of_addAt? (hdoc : doc.canonical = doc)
    (h : addAt? value path doc = some out) : withParents false path doc = doc := by
  induction path generalizing doc out with
  | nil => rw [withParents]
  | cons token rest ih =>
      cases rest with
      | nil => cases doc <;> simp [withParents]
      | cons next rest =>
          rw [addAt?] at h
          obtain ⟨child, changed, hchild, hchanged⟩ := exists_child_of_descend? h
          have hsame := ih (canonical_of_child? hdoc hchild) hchanged
          have hpresent := ne_null_of_addAt? hchanged
          cases doc with
          | object members =>
              have hget : Dict.get? members token = some child := hchild
              have hsorted : Dict.Sorted members := (canonical_object_iff.mp hdoc).1
              rw [withParents]
              simp only [hget, Option.getD_some, if_neg hpresent, hsame, hsorted.insert_of_get? hget]
          | array items =>
              obtain ⟨i, hi, hitem⟩ := Option.bind_eq_some_iff.mp hchild
              obtain ⟨hlt, hitem'⟩ := List.getElem?_eq_some_iff.mp hitem
              rw [withParents]
              simp only [position?_of_index? hi, Bool.false_eq_true, if_false, hitem,
                if_neg hpresent, hsame]
              rw [← hitem', List.set_getElem_self]
          | _ => cases hchild

end Presence

end ResourceGraph.Json
