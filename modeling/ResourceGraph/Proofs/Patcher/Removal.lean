import ResourceGraph.Proofs.Json.Location
import ResourceGraph.Proofs.Patcher.Relaxation

namespace ResourceGraph.Json

/-- The step from a value that a token means. -/
def stepFor? (token : String) : Json → Option Step
  | .object _ => some (.member token)
  | .array _ => (Pointer.index? token).map .item
  | _ => none

def locate? : Pointer → Json → Option Location
  | [], _ => some []
  | token :: rest, x => do
      let s ← stepFor? token x
      let child ← x.step? s
      return s :: (← locate? rest child)

/-- A container without a member, or without an item in whose place the later ones move down. -/
def without : Step → Json → Json
  | .member name, .object members => .object (Dict.erase members name)
  | .item i, .array items => .array (items.eraseIdx i)
  | _, x => x

/-- A document before and after one step of a container was taken away. -/
structure Removed (container : Location) (s : Step) (doc out : Json) : Prop where
  taken : ∃ x, doc.value? container = some x ∧ out.value? container = some (x.without s)
  kept : AgreesApart container doc out

section Steps

variable {doc x y out : Json} {token : String} {s : Step} {path : Pointer} {a : Location}

theorem child?_eq_some_iff :
    doc.child? token = some x ↔ ∃ s, stepFor? token doc = some s ∧ doc.step? s = some x := by
  cases doc with
  | object members =>
      constructor
      · intro h
        exact ⟨.member token, rfl, h⟩
      · rintro ⟨s, hs, hx⟩
        obtain rfl := Option.some.inj hs
        exact hx
  | array items =>
      constructor
      · intro h
        obtain ⟨i, hi, hx⟩ := Option.bind_eq_some_iff.mp h
        exact ⟨.item i, Option.map_eq_some_iff.mpr ⟨i, hi, rfl⟩, hx⟩
      · rintro ⟨s, hs, hx⟩
        obtain ⟨i, hi, rfl⟩ := Option.map_eq_some_iff.mp hs
        exact Option.bind_eq_some_iff.mpr ⟨i, hi, hx⟩
  | _ => exact ⟨nofun, fun ⟨_, hs, _⟩ => nomatch hs⟩

theorem locate?_cons (hs : stepFor? token doc = some s) (hx : doc.step? s = some x)
    (ha : x.locate? path = some a) : doc.locate? (token :: path) = some (s :: a) := by
  rw [locate?, hs, Option.bind_eq_bind, Option.bind_some, hx, Option.bind_eq_bind, Option.bind_some,
    ha]
  rfl

theorem removeChild?_of_step? (hs : stepFor? token doc = some s) (hx : doc.step? s = some x) :
    doc.removeChild? token = some (doc.without s) := by
  cases doc with
  | object members =>
      obtain rfl := Option.some.inj hs
      have hget : Dict.get? members token = some x := hx
      rw [removeChild?, Dict.contains, hget]
      rfl
  | array items =>
      obtain ⟨i, hi, rfl⟩ := Option.map_eq_some_iff.mp hs
      obtain ⟨hlt, -⟩ := List.getElem?_eq_some_iff.mp hx
      rw [removeChild?, hi]
      exact if_pos hlt
  | _ => cases hs

theorem exists_descend?_of_step? {f : Json → Option Json} (hs : stepFor? token doc = some s)
    (hx : doc.step? s = some x) (hf : f x = some y) :
    ∃ out, doc.descend? token f = some out ∧ out.step? s = some y ∧
      ∀ t, t ≠ s → out.step? t = doc.step? t := by
  cases doc with
  | object members =>
      obtain rfl := Option.some.inj hs
      have hget : Dict.get? members token = some x := hx
      refine ⟨.object (Dict.insert members token y), ?_, step?_insert_self y,
        fun t ht => step?_insert_of_ne y ht⟩
      rw [descend?, hget, Option.bind_eq_bind, Option.bind_some, hf]
      rfl
  | array items =>
      obtain ⟨i, hi, rfl⟩ := Option.map_eq_some_iff.mp hs
      have hitem : items[i]? = some x := hx
      obtain ⟨hlt, -⟩ := List.getElem?_eq_some_iff.mp hitem
      refine ⟨.array (items.set i y), ?_, step?_set_self y hlt, fun t ht => step?_set_of_ne y ht⟩
      rw [descend?, hi, Option.bind_eq_bind, Option.bind_some, hitem, Option.bind_eq_bind,
        Option.bind_some, hf]
      rfl
  | _ => cases hs

theorem exists_removeAt? (hpath : path ≠ []) (hat : doc.at? path = some x) :
    ∃ container s out, doc.locate? path = some (container ++ [s]) ∧
      doc.value? (container ++ [s]) = some x ∧ removeAt? path doc = some out ∧
        Removed container s doc out := by
  induction path generalizing doc with
  | nil => exact absurd rfl hpath
  | cons token rest ih =>
      obtain ⟨child, hchild, hat⟩ := Option.bind_eq_some_iff.mp hat
      obtain ⟨s, hs, hstep⟩ := child?_eq_some_iff.mp hchild
      cases rest with
      | nil =>
          obtain rfl := Option.some.inj hat
          refine ⟨[], s, doc.without s, locate?_cons hs hstep rfl, ?_, ?_, ?_⟩
          · rw [List.nil_append, value?_cons, hstep]
            rfl
          · rw [removeAt?, removeChild?_of_step? hs hstep]
          · exact ⟨⟨doc, rfl, rfl⟩, agreesApart_nil _ _⟩
      | cons next rest =>
          obtain ⟨container, last, changed, hlocate, hvalue, hremove, hremoved⟩ :=
            ih (List.cons_ne_nil next rest) hat
          obtain ⟨out, hdescend, hsame, hothers⟩ := exists_descend?_of_step? hs hstep hremove
          obtain ⟨x', hbefore, hafter⟩ := hremoved.taken
          refine ⟨s :: container, last, out, locate?_cons hs hstep hlocate, ?_, ?_, ?_, ?_⟩
          · rw [List.cons_append, value?_cons, hstep]
            exact hvalue
          · rw [removeAt?]
            exact hdescend
          · refine ⟨x', ?_, ?_⟩
            · rw [value?_cons, hstep]
              exact hbefore
            · rw [value?_cons, hsame]
              exact hafter
          · exact hremoved.kept.below hothers hstep hsame

end Steps

section Operations

variable {doc raw : Json} {path : Pointer}

theorem exists_of_textMember_ne {name : String} (h : raw.textMember name ≠ "") :
    ∃ members value, raw = .object members ∧ Dict.get? members name = some value ∧
      value.asString? = some (raw.textMember name) := by
  cases raw with
  | object members =>
      rw [textMember] at h ⊢
      cases htext : (Dict.get? members name).bind asString? with
      | none =>
          rw [htext] at h
          exact absurd rfl h
      | some text =>
          obtain ⟨value, hvalue, hstring⟩ := Option.bind_eq_some_iff.mp htext
          exact ⟨members, value, rfl, hvalue, hstring⟩
  | _ => exact absurd rfl h

theorem Operation.ofJson?_remove (hop : raw.textMember "op" = "remove")
    (hpath : Pointer.ofText? (raw.textMember "path") = some path) (hne : path ≠ []) :
    ofJson? raw = some (.remove path) := by
  have htext : raw.textMember "path" ≠ "" := by
    intro hempty
    rw [hempty] at hpath
    exact hne (Option.some.inj hpath).symm
  have hnamed : raw.textMember "op" ≠ "" := by
    rw [hop]
    decide
  obtain ⟨members, op, rfl, hget, hname⟩ := exists_of_textMember_ne hnamed
  obtain ⟨members', place, hsame, hplace, hstring⟩ := exists_of_textMember_ne htext
  obtain rfl := Json.object.inj hsame
  rw [Dict.get?_eq_find?] at hplace
  rw [ofJson?, hget, Option.bind_eq_bind, Option.bind_some, hname, hop, Option.bind_eq_bind,
    Option.bind_some, ofFields?]
  simp only [hplace, Option.bind_eq_bind, Option.bind_some, hstring, hpath]
  rfl

/-- The removal of a part of a document succeeds. What its pointer finds is taken out of its container,
and where it finds nothing the document stays. -/
theorem applyRelaxed_remove (hop : raw.textMember "op" = "remove")
    (hpath : Pointer.ofText? (raw.textMember "path") = some path) (hne : path ≠ []) :
    (doc.at? path = none → applyRelaxed doc raw = .ok doc) ∧
      ∀ x, doc.at? path = some x → ∃ container s out,
        doc.locate? path = some (container ++ [s]) ∧ doc.value? (container ++ [s]) = some x ∧
          applyRelaxed doc raw = .ok out ∧ Removed container s doc out := by
  have hloose := Pointer.ofTextLoosely?_of_ofText? hpath
  constructor
  · intro hnone
    rw [applyRelaxed]
    simp only [hop, hloose, Option.bind_some, hnone, Option.isNone_none, if_true]
  · intro x hat
    obtain ⟨container, s, out, hlocate, hvalue, hremove, hremoved⟩ := exists_removeAt? hne hat
    refine ⟨container, s, out, hlocate, hvalue, ?_, hremoved⟩
    rw [applyRelaxed]
    simp only [hop, hloose, Option.bind_some, hat, Option.isNone_some, Bool.false_eq_true, if_false]
    rw [applyStrictly, Operation.ofJson?_remove hop hpath hne]
    simp only [Operation.apply, hremove]
    rfl

end Operations

def listing : Json :=
  .object [("spec", .object [("a/b", .array [.string "x", .object [("k", .null)], .string "z"])])]

def removal (path : String) : Json := .object [("op", .string "remove"), ("path", .string path)]

/-- The second item of a list goes; an index with a leading zero finds none. -/
theorem applyRelaxed_remove_of_listing :
    (∃ out, applyRelaxed listing (removal "/spec/a~1b/1") = .ok out ∧
        out.value? [.member "spec", .member "a/b"] = some (.array [.string "x", .string "z"])) ∧
      applyRelaxed listing (removal "/spec/a~1b/01") = .ok listing := by
  have hop : ∀ path, (removal path).textMember "op" = "remove" := fun path => rfl
  have hpath : Pointer.ofText? ((removal "/spec/a~1b/1").textMember "path") =
      some ["spec", "a/b", "1"] := by decide +kernel
  have hpath' : Pointer.ofText? ((removal "/spec/a~1b/01").textMember "path") =
      some ["spec", "a/b", "01"] := by decide +kernel
  have hfound : listing.at? ["spec", "a/b", "1"] = some (.object [("k", .null)]) := by decide +kernel
  have hmissing : listing.at? ["spec", "a/b", "01"] = none := by decide +kernel
  have hlocated : listing.locate? ["spec", "a/b", "1"] =
      some ([.member "spec", .member "a/b"] ++ [.item 1]) := by decide +kernel
  constructor
  · obtain ⟨container, s, out, hlocate, -, hrun, hremoved⟩ :=
      (applyRelaxed_remove (hop _) hpath (List.cons_ne_nil _ _)).2 _ hfound
    obtain ⟨rfl, hlast⟩ := List.append_inj' (Option.some.inj (hlocate.symm.trans hlocated)) rfl
    obtain rfl := List.singleton_inj.mp hlast
    obtain ⟨x, hbefore, hafter⟩ := hremoved.taken
    obtain rfl := Option.some.inj hbefore
    exact ⟨out, hrun, hafter⟩
  · exact (applyRelaxed_remove (hop _) hpath' (List.cons_ne_nil _ _)).1 hmissing

end ResourceGraph.Json
