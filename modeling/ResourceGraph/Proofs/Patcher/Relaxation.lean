import Mathlib.Data.List.Permutation
import ResourceGraph.Patcher.Attributes
import ResourceGraph.Proofs.Json.Place
import ResourceGraph.Proofs.Json.Reading
import ResourceGraph.Proofs.Outcome

/-!
The relaxations of JSON patches change nothing for patches that need none: where the operations of a
list succeed one after the other as they stand, the relaxed application comes to the same.
-/

namespace ResourceGraph

namespace Pointer

variable {text : String} {path : Pointer}

theorem ofTextLoosely?_of_ofText? (h : ofText? text = some path) :
    ofTextLoosely? text = some path := by
  rw [ofText?] at h
  split at h
  · exact h
  · cases h

theorem tokens_of_ofText? (h : ofText? text = some path) : tokens text = path := by
  have hloose := ofTextLoosely?_of_ofText? h
  rw [ofTextLoosely?] at hloose
  split at hloose
  · next hempty =>
    rw [← Option.some.inj hloose, tokens, hempty]
    rfl
  · exact Option.some.inj hloose
  · cases hloose

end Pointer

namespace Json

variable {doc raw out : Json}

namespace Operation

/-- The value that an operation brings along keeps its members in order. -/
def Canonical : Operation → Prop
  | .add _ value | .replace _ value | .test _ value => value.canonical = value
  | .remove _ | .move _ _ | .copy _ _ => True

theorem orFail_eq_ok_iff {r : Option Json} {fault : OperationFault} :
    orFail r fault = .ok out ↔ r = some out := by
  cases r <;> simp [orFail]

theorem canonical_of_apply {op : Operation} (hdoc : doc.canonical = doc) (hop : op.Canonical)
    (h : op.apply doc = .ok out) : out.canonical = out := by
  cases op with
  | add path value => exact canonical_of_addAt? hdoc hop (orFail_eq_ok_iff.mp h)
  | remove path => exact canonical_of_removeAt? hdoc (orFail_eq_ok_iff.mp h)
  | replace path value => exact canonical_of_replaceAt? hdoc hop (orFail_eq_ok_iff.mp h)
  | move source path =>
      rw [apply] at h
      split at h
      · cases h
      · split at h
        · next value rest hvalue hrest =>
          exact canonical_of_addAt? (canonical_of_removeAt? hdoc hrest)
            (canonical_of_at? hdoc hvalue) (orFail_eq_ok_iff.mp h)
        · cases h
  | copy source path =>
      rw [apply] at h
      split at h
      · next value hvalue =>
        exact canonical_of_addAt? hdoc (canonical_of_at? hdoc hvalue) (orFail_eq_ok_iff.mp h)
      · cases h
  | test path value =>
      rw [apply] at h
      split at h
      · cases h
      · split at h
        · exact Except.ok.inj h ▸ hdoc
        · cases h

section Reading

variable {name : String} {fields : List (String × Json)} {op : Operation}

theorem canonical_of_ofFields? (hfields : ∀ e ∈ fields, e.2.canonical = e.2)
    (h : ofFields? name fields = some op) : op.Canonical := by
  have hvalue : ∀ v, (fields.find? (·.1 == "value")).map Prod.snd = some v →
      v.canonical = v := by
    intro v hv
    obtain ⟨e, he, rfl⟩ := Option.map_eq_some_iff.mp hv
    exact hfields e (List.mem_of_find?_eq_some he)
  unfold ofFields? at h
  split at h
  all_goals simp only [Option.bind_eq_bind, Option.bind_eq_some_iff, Option.pure_def,
    Option.some.injEq] at h
  · obtain ⟨path, -, value, hv, rfl⟩ := h
    exact hvalue value hv
  · obtain ⟨path, -, rfl⟩ := h
    trivial
  · obtain ⟨path, -, value, hv, rfl⟩ := h
    exact hvalue value hv
  · obtain ⟨source, -, path, -, rfl⟩ := h
    trivial
  · obtain ⟨source, -, path, -, rfl⟩ := h
    trivial
  · obtain ⟨path, -, value, hv, rfl⟩ := h
    exact hvalue value hv
  · cases h

theorem canonical_of_ofJson? (hraw : raw.canonical = raw) (h : ofJson? raw = some op) :
    op.Canonical := by
  cases raw with
  | object members =>
      obtain ⟨first, -, h⟩ := Option.bind_eq_some_iff.mp h
      obtain ⟨name, -, h⟩ := Option.bind_eq_some_iff.mp h
      exact canonical_of_ofFields? (canonical_object_iff.mp hraw).2 h
  | array items =>
      cases items with
      | nil => cases h
      | cons first items =>
          obtain ⟨name, -, h⟩ := Option.bind_eq_some_iff.mp h
          obtain ⟨names, -, h⟩ := Option.bind_eq_some_iff.mp h
          have hitems := canonical_array_iff.mp hraw
          split at h
          · cases h
          · apply canonical_of_ofFields? _ h
            intro e he
            exact hitems e.2 (List.mem_cons_of_mem first (List.of_mem_zip he).2)
  | _ => cases h

theorem exists_members_of_textMember (h : ofJson? raw = some op)
    (hname : raw.textMember "op" = name) (hne : name ≠ "") :
    ∃ members, raw = .object members ∧ ofFields? name members = some op := by
  cases raw with
  | object members =>
      obtain ⟨value, hvalue, h⟩ := Option.bind_eq_some_iff.mp h
      obtain ⟨named, hnamed, h⟩ := Option.bind_eq_some_iff.mp h
      rw [textMember, hvalue, Option.bind_some, hnamed, Option.getD_some] at hname
      exact ⟨members, rfl, hname ▸ h⟩
  | _ => exact absurd hname.symm hne

theorem pointer_textMember {members : List (String × Json)} {field : String} {path : Pointer}
    (h : (((members.find? (·.1 == field)).map Prod.snd).bind fun v =>
      v.asString?.bind Pointer.ofText?) = some path) :
    Pointer.ofText? ((Json.object members).textMember field) = some path := by
  obtain ⟨value, hvalue, h⟩ := Option.bind_eq_some_iff.mp h
  obtain ⟨text, htext, h⟩ := Option.bind_eq_some_iff.mp h
  rw [textMember, Dict.get?_eq_find?, hvalue, Option.bind_some, htext]
  exact h

theorem exists_remove (h : ofJson? raw = some op) (hname : raw.textMember "op" = "remove") :
    ∃ path, op = .remove path ∧ Pointer.ofText? (raw.textMember "path") = some path := by
  obtain ⟨members, rfl, hfields⟩ := exists_members_of_textMember h hname (by decide)
  rw [ofFields?] at hfields
  obtain ⟨path, hpath, hfields⟩ := Option.bind_eq_some_iff.mp hfields
  exact ⟨path, (Option.some.inj hfields).symm, pointer_textMember hpath⟩

theorem exists_add (h : ofJson? raw = some op) (hname : raw.textMember "op" = "add") :
    ∃ path value, op = .add path value ∧
      Pointer.ofText? (raw.textMember "path") = some path := by
  obtain ⟨members, rfl, hfields⟩ := exists_members_of_textMember h hname (by decide)
  rw [ofFields?] at hfields
  obtain ⟨path, hpath, hfields⟩ := Option.bind_eq_some_iff.mp hfields
  obtain ⟨value, -, hfields⟩ := Option.bind_eq_some_iff.mp hfields
  exact ⟨path, value, (Option.some.inj hfields).symm, pointer_textMember hpath⟩

end Reading

end Operation

/-- An operation as it is written needs no relaxation: no parent of a place to add is missing, and
what is to be removed is there. -/
structure FindsPlace (doc raw : Json) : Prop where
  parents : raw.textMember "op" = "add" →
    withParents false (Pointer.tokens (raw.textMember "path")) doc = doc
  present : raw.textMember "op" = "remove" →
    ∃ found, ((Pointer.ofTextLoosely? (raw.textMember "path")).bind fun p => doc.at? p) = some found

theorem findsPlace_of_apply {op : Operation} (hdoc : doc.canonical = doc)
    (hop : Operation.ofJson? raw = some op) (h : op.apply doc = .ok out) : FindsPlace doc raw := by
  constructor
  · intro hname
    obtain ⟨path, value, rfl, hpath⟩ := Operation.exists_add hop hname
    rw [Pointer.tokens_of_ofText? hpath]
    exact withParents_of_addAt? hdoc (Operation.orFail_eq_ok_iff.mp h)
  · intro hname
    obtain ⟨path, rfl, hpath⟩ := Operation.exists_remove hop hname
    rw [Pointer.ofTextLoosely?_of_ofText? hpath]
    exact Option.isSome_iff_exists.mp (isSome_at?_of_removeAt? (Operation.orFail_eq_ok_iff.mp h))

theorem applyRelaxed_eq (h : FindsPlace doc raw) : applyRelaxed doc raw = applyStrictly doc raw := by
  rw [applyRelaxed]
  split
  · next hname =>
    obtain ⟨found, hfound⟩ := h.present hname
    rw [hfound]
    rfl
  · next hname => rw [h.parents hname]
  · rfl

section Lists

variable {raws : List Json} {ops : List Operation}

theorem applyAllRelaxed_of_foldlM (hraws : ∀ raw ∈ raws, raw.canonical = raw)
    (hops : raws.mapM Operation.ofJson? = some ops) (hdoc : doc.canonical = doc)
    (h : ops.foldlM Operation.apply doc = .ok out) :
    applyAllRelaxed doc raws = .ok out ∧
      ∀ earlier raw later, raws = earlier ++ raw :: later →
        ∃ reached, applyAllRelaxed doc earlier = .ok reached ∧ FindsPlace reached raw := by
  -- Both runs reach the same document after each operation; that it stays canonical is what makes
  -- the next creation of parents the identity.
  induction raws generalizing ops doc with
  | nil =>
      obtain rfl : [] = ops := Option.some.inj hops
      rw [List.foldlM_nil, Except.pure_eq_ok_iff] at h
      refine ⟨by rw [applyAllRelaxed, h], ?_⟩
      intro earlier raw later hsplit
      exact absurd hsplit.symm (List.append_ne_nil_of_right_ne_nil _ (List.cons_ne_nil _ _))
  | cons first rest ih =>
      rw [List.mapM_cons] at hops
      obtain ⟨op, hop, hops⟩ := Option.bind_eq_some_iff.mp hops
      obtain ⟨ops', hops', hops⟩ := Option.bind_eq_some_iff.mp hops
      obtain rfl := Option.some.inj hops
      rw [List.foldlM_cons] at h
      obtain ⟨next, hnext, h⟩ := Except.bind_eq_ok_iff.mp h
      have hplace := findsPlace_of_apply hdoc hop hnext
      have hfirst : applyRelaxed doc first = .ok next := by
        rw [applyRelaxed_eq hplace, applyStrictly, hop]
        exact Except.mapError_eq_ok_iff.mpr hnext
      have hvalue := Operation.canonical_of_ofJson? (hraws first List.mem_cons_self) hop
      obtain ⟨hall, hplaces⟩ := ih (fun x hx => hraws x (List.mem_cons_of_mem first hx)) hops'
        (Operation.canonical_of_apply hdoc hvalue hnext) h
      refine ⟨by rw [applyAllRelaxed, hfirst]; exact hall, ?_⟩
      intro earlier raw later hsplit
      cases earlier with
      | nil =>
          obtain ⟨rfl, -⟩ := List.cons_eq_cons.mp hsplit
          exact ⟨doc, applyAllRelaxed.eq_1 doc, hplace⟩
      | cons e earlier =>
          obtain ⟨rfl, hrest⟩ := List.cons_eq_cons.mp hsplit
          obtain ⟨reached, hreached, hraw⟩ := hplaces earlier raw later hrest
          refine ⟨reached, ?_, hraw⟩
          rw [applyAllRelaxed, hfirst]
          exact hreached

end Lists

end Json

namespace AttributePatch

variable {p : AttributePatch} {r : Resource} {before after : List Resource}
  {attributes : Dict Json}

theorem canonical_of_payloadJson? {value : Json} (h : p.payloadJson? = some value) :
    value.canonical = value := by
  obtain ⟨raw, -, h⟩ := Option.bind_eq_some_iff.mp h
  rw [Document.ofJson, Document.json?] at h
  split at h
  · exact Option.some.inj h ▸ Json.canonical_canonical raw
  · cases h

theorem payloadJson?_array {items : List Json} (hnumbers : (Json.array items).Numberless)
    (hcanonical : (Json.array items).canonical = .array items)
    (hdepth : (Json.array items).depth ≤ Document.jsonDepthLimit) (type : PatchRule) :
    (⟨type, .array items⟩ : AttributePatch).payloadJson? = some (.array items) := by
  have hread : Json.read? (Json.array items).text = some (.array items) := by
    rw [Json.read?, Json.readAs?_text hnumbers, Json.view_whole]
  rw [payloadJson?, payloadText, hread, Option.bind_some, Document.ofJson, Document.json?, hcanonical]
  apply if_pos
  omega

theorem patched_of_applyAllRelaxed {raws : List Json} {id : String} {old : Dict Json}
    (htype : p.type = .jsonPatch) (hpayload : p.payloadJson? = some (.array raws))
    (h : Json.applyAllRelaxed (.object old) raws = .ok (.object attributes)) :
    p.patched id old = .ok attributes := by
  simp only [patched, htype, hpayload, h]
  rfl

theorem apply_of_first (hbefore : ∀ x ∈ before, x.id ≠ r.id)
    (h : p.patched r.id r.attributes = .ok attributes) :
    p.apply r.id (before ++ r :: after) = .ok (before ++ { r with attributes } :: after) := by
  induction before with
  | nil =>
      rw [List.nil_append, apply, if_pos rfl, h]
      rfl
  | cons x rest ih =>
      rw [List.cons_append, apply, if_neg (hbefore x List.mem_cons_self),
        ih fun y hy => hbefore y (List.mem_cons_of_mem x hy)]
      rfl

theorem applyAll_singleton (id : String) (resources : List Resource) :
    applyAll [(id, p)] resources = p.apply id resources := by
  rw [applyAll]
  cases p.apply id resources <;> rfl

end AttributePatch

namespace Patcher

open Json

/-- A patch whose operations all succeed as they stand gives the attributes that they give: at every
operation no parent is missing that would be created, and nothing is absent whose removal would be
skipped. -/
theorem patchAttributes_of_strict {p : Patcher} {patch : AttributePatch} {r : Resource}
    {before after : List Resource} {raws : List Json} {ops : List Operation}
    {attributes : Dict Json} (hp : p.attributePatches = some [(r.id, patch)])
    (htype : patch.type = .jsonPatch) (hpayload : patch.payloadJson? = some (.array raws))
    (hops : raws.mapM Operation.ofJson? = some ops)
    (hold : (Json.object r.attributes).canonical = .object r.attributes)
    (hbefore : ∀ x ∈ before, x.id ≠ r.id)
    (hstrict : ops.foldlM Operation.apply (.object r.attributes) = .ok (.object attributes)) :
    p.patchAttributes (before ++ r :: after) = .ok (before ++ { r with attributes } :: after) ∧
      ∀ earlier raw later, raws = earlier ++ raw :: later →
        ∃ reached, applyAllRelaxed (.object r.attributes) earlier = .ok reached ∧
          FindsPlace reached raw := by
  have hraws := canonical_array_iff.mp (AttributePatch.canonical_of_payloadJson? hpayload)
  obtain ⟨hall, hplaces⟩ := applyAllRelaxed_of_foldlM hraws hops hold hstrict
  refine ⟨?_, hplaces⟩
  rw [patchAttributes, hp, Option.getD_some, AttributePatch.applyAll_singleton]
  apply AttributePatch.apply_of_first hbefore
  exact AttributePatch.patched_of_applyAllRelaxed htype hpayload hall

def ofOperations (id : String) (operations : List Json) : Patcher :=
  ⟨none, none, none, none, none, some [(id, ⟨.jsonPatch, .array operations⟩)]⟩

def written (name path : String) (source : Option String) (value : Option Json) : Json :=
  .record [fieldOf "from" source .string, field "op" (.string name), field "path" (.string path),
    fieldOf "value" value id]

def service : Resource :=
  .new "a" .kubernetes [("kind", .null), ("note", .string "x"), ("ports", .array [.string "http"]),
    ("spec", .object [])]

def rearranging : List Json :=
  [written "test" "/ports/0" none (some (.string "http")),
    written "add" "/ports/-" none (some (.string "https")),
    written "copy" "/spec/first" (some "/ports/0") none,
    written "move" "/spec/a~1b" (some "/note") none,
    written "remove" "/ports/0" none none,
    written "replace" "/kind" none (some (.string "Service"))]

theorem patchAttributes_rearranging :
    (ofOperations "a" rearranging).patchAttributes [.new "b" .kubernetes [], service] =
      .ok [.new "b" .kubernetes [], .new "a" .kubernetes
        [("kind", .string "Service"), ("ports", .array [.string "https"]),
          ("spec", .object [("a/b", .string "x"), ("first", .string "http")])]] := by
  have hpayload : (⟨.jsonPatch, .array rearranging⟩ : AttributePatch).payloadJson? =
      some (.array rearranging) := by
    apply AttributePatch.payloadJson?_array
    · simp [Numberless, NumberlessItems, NumberlessMembers, rearranging, written, record, field,
        fieldOf]
    · decide +kernel
    · decide +kernel
  have hops : rearranging.mapM Operation.ofJson? =
      some [.test ["ports", "0"] (.string "http"), .add ["ports", "-"] (.string "https"),
        .copy ["ports", "0"] ["spec", "first"], .move ["note"] ["spec", "a/b"],
        .remove ["ports", "0"], .replace ["kind"] (.string "Service")] := by decide +kernel
  have hold : (Json.object service.attributes).canonical = .object service.attributes := by
    decide +kernel
  have hbefore : ∀ x ∈ [Resource.new "b" .kubernetes []], x.id ≠ service.id := by decide +kernel
  have hrun : _ = Except.ok (_ ++ _ :: []) ∧ _ :=
    patchAttributes_of_strict (p := ofOperations "a" rearranging) rfl rfl hpayload hops hold hbefore
      (by cbv)
  exact hrun.1

/-- The double nearest to `0.09640276652150459`. -/
def unsteady : Double := ⟨false, 6946551414139728, -56⟩

def neighbour : Double := ⟨false, 6946551414139729, -56⟩

/-- An inline list is applied as it reads once it is written, which may be another list where it
brings decimals. -/
theorem not_patchAttributes_of_inline_decimal :
    [written "add" "/x" none (some (.number (.float unsteady)))].mapM Operation.ofJson? =
        some [.add ["x"] (.number (.float unsteady))] ∧
      [Operation.add ["x"] (.number (.float unsteady))].foldlM Operation.apply (.object []) =
        .ok (.object [("x", .number (.float unsteady))]) ∧
      (ofOperations "a" [written "add" "/x" none (some (.number (.float unsteady)))]).patchAttributes
          [.new "a" .kubernetes []] ≠
        .ok [.new "a" .kubernetes [("x", .number (.float unsteady))]] := by
  refine ⟨by decide +kernel, by cbv, ?_⟩
  have hpayload : (⟨.jsonPatch, .array [written "add" "/x" none (some (.number (.float unsteady)))]⟩ :
      AttributePatch).payloadJson? = some (.array
        [written "add" "/x" none (some (.number (.float neighbour)))]) := by
    decide +kernel
  have hpatched : AttributePatch.patched _ "a" [] =
      .ok [("x", .number (.float neighbour))] :=
    AttributePatch.patched_of_applyAllRelaxed rfl hpayload (by cbv)
  have hrun : AttributePatch.apply _ "a" ([] ++ [.new "a" .kubernetes []]) = _ :=
    AttributePatch.apply_of_first (r := .new "a" .kubernetes [])
      (fun _ hx => absurd hx List.not_mem_nil) hpatched
  rw [patchAttributes, ofOperations, Option.getD_some, AttributePatch.applyAll_singleton]
  intro h
  have hsame := Except.ok.inj (hrun.symm.trans h)
  revert hsame
  decide +kernel

end Patcher

end ResourceGraph
