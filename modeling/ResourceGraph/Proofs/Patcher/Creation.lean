import ResourceGraph.Proofs.Json.Addition
import ResourceGraph.Proofs.Patcher.Relaxation

namespace ResourceGraph

namespace Json

variable {fields : List (String × Json)} {path : Pointer} {doc value out : Json}

theorem Operation.textMember_op_of_add
    (h : ofJson? (.object fields) = some (.add path value)) :
    (Json.object fields).textMember "op" = "add" := by
  obtain ⟨first, hfirst, h⟩ := Option.bind_eq_some_iff.mp h
  obtain ⟨name, hname, h⟩ := Option.bind_eq_some_iff.mp h
  rw [textMember, hfirst, Option.bind_some, hname, Option.getD_some]
  unfold ofFields? at h
  split at h
  · rfl
  all_goals simp [Option.bind_eq_some_iff] at h

theorem applyRelaxed_of_add (hop : Operation.ofJson? (.object fields) = some (.add path value))
    (hdoc : doc ≠ .null) :
    applyRelaxed doc (.object fields) =
      (Operation.orFail (grow? value path doc) .invalidPath).mapError
        (.operation ((Json.object fields).textMember "path")) := by
  have hname := Operation.textMember_op_of_add hop
  obtain ⟨path', value', hsame, hpath⟩ := Operation.exists_add hop hname
  obtain ⟨rfl, rfl⟩ := Operation.add.inj hsame
  rw [applyRelaxed]
  simp only [hname, Pointer.tokens_of_ofText? hpath]
  rw [applyStrictly, hop, grow?_of_ne_null hdoc]
  rfl

theorem applyRelaxed_eq_ok_iff (hop : Operation.ofJson? (.object fields) = some (.add path value))
    (hdoc : doc ≠ .null) :
    applyRelaxed doc (.object fields) = .ok out ↔ grow? value path doc = some out := by
  rw [applyRelaxed_of_add hop hdoc, Except.mapError_eq_ok_iff, Operation.orFail_eq_ok_iff]

theorem applyRelaxed_eq_invalidPath_iff
    (hop : Operation.ofJson? (.object fields) = some (.add path value)) (hdoc : doc ≠ .null) :
    applyRelaxed doc (.object fields) =
        .error (.operation ((Json.object fields).textMember "path") .invalidPath) ↔
      grow? value path doc = none := by
  rw [applyRelaxed_of_add hop hdoc]
  cases grow? value path doc with
  | none => exact ⟨fun _ => rfl, fun _ => rfl⟩
  | some out => exact ⟨nofun, nofun⟩

/-- An addition to an object succeeds exactly when the walk of its parents ends where a value can be
added, it fails exactly when the walk ends elsewhere, and it changes nothing but what it adds. -/
theorem applyRelaxed_add {members : List (String × Json)} {parents : Pointer} {last : String}
    (hop : Operation.ofJson? (.object fields) = some (.add (parents ++ [last]) value))
    (hpath : Pointer.Unambiguous (parents ++ [last])) :
    ((∃ out, applyRelaxed (.object members) (.object fields) = .ok out) ↔
        ∃ rest x, Reaches (parents ++ [last]) (.object members) rest x ∧ Takes rest x) ∧
      (applyRelaxed (.object members) (.object fields) =
          .error (.operation ((Json.object fields).textMember "path") .invalidPath) ↔
        ∃ rest x, Reaches (parents ++ [last]) (.object members) rest x ∧ Refuses rest x) ∧
      ∀ out, applyRelaxed (.object members) (.object fields) = .ok out →
        Added parents last value (.object members) out := by
  have hne : parents ++ [last] ≠ [] := by simp
  have hok : ∀ out, applyRelaxed (.object members) (.object fields) = .ok out ↔
      grow? value (parents ++ [last]) (.object members) = some out :=
    fun out => applyRelaxed_eq_ok_iff hop (by simp)
  refine ⟨?_, ?_, fun out hout => ?_⟩
  · rw [← isSome_grow?_iff hne hpath, Option.isSome_iff_exists]
    exact exists_congr hok
  · rw [← grow?_eq_none_iff hne hpath]
    exact applyRelaxed_eq_invalidPath_iff hop (by simp)
  · exact added_of_grow? hpath ((hok out).mp hout)

def addition (path : String) (value : Json) : List (String × Json) :=
  [("op", .string "add"), ("path", .string path), ("value", value)]

def openDocument : List (String × Json) := [("spec", .object [("extra", .null), ("kind", .string "x")])]

def filledDocument : List (String × Json) :=
  [("spec", .object [("extra", .array [.null, .null, .object [("name", .string "y")]]),
    ("kind", .string "x")])]

theorem applyRelaxed_add_of_null :
    applyRelaxed (.object openDocument) (.object (addition "/spec/extra/2/name" (.string "y"))) =
        .ok (.object filledDocument) ∧
      Added ["spec", "extra", "2"] "name" (.string "y") (.object openDocument) (.object filledDocument) := by
  have hop : Operation.ofJson? (.object (addition "/spec/extra/2/name" (.string "y"))) =
      some (.add (["spec", "extra", "2"] ++ ["name"]) (.string "y")) := by decide +kernel
  have hindex : ∀ token ∈ ["spec", "extra", "2"] ++ ["name"],
      Pointer.looseIndex? token = Pointer.index? token := by decide +kernel
  have hpath : Pointer.Unambiguous (["spec", "extra", "2"] ++ ["name"]) :=
    ⟨fun token ht i hi => hindex token ht ▸ hi, by decide +kernel⟩
  have hrun : applyRelaxed (.object openDocument)
      (.object (addition "/spec/extra/2/name" (.string "y"))) = .ok (.object filledDocument) := by cbv
  exact ⟨hrun, (applyRelaxed_add hop hpath).2.2 _ hrun⟩

/-- Below a missing member of an object a value can be added exactly when the tokens that follow are
read alike by the creation of parents and by the patch. -/
theorem applyRelaxed_add_below_missing_iff {members inner : List (String × Json)}
    {walked rest : Pointer} {token : String}
    (hop : Operation.ofJson? (.object fields) = some (.add (walked ++ token :: rest) value))
    (hat : (Json.object members).at? walked = some (.object inner))
    (hmissing : Dict.get? inner token = none) :
    (∃ out, applyRelaxed (.object members) (.object fields) = .ok out) ↔ rest.Unambiguous := by
  have hreach : Reaches (walked ++ token :: rest) (.object members) (token :: rest) (.object inner) :=
    ⟨walked, rfl, hat⟩
  have hsome : (∃ out, applyRelaxed (.object members) (.object fields) = .ok out) ↔
      (grow? value rest .null).isSome := by
    calc (∃ out, applyRelaxed (.object members) (.object fields) = .ok out)
      _ ↔ (grow? value (walked ++ token :: rest) (.object members)).isSome := by
        rw [Option.isSome_iff_exists]
        exact exists_congr fun out => applyRelaxed_eq_ok_iff hop (by simp)
      _ ↔ (grow? value (token :: rest) (.object inner)).isSome := by
        rw [hreach.isSome_grow? (List.cons_ne_nil token rest)]
      _ ↔ (grow? value rest .null).isSome := by
        rw [grow?_object, hmissing, Option.isSome_map, Option.getD_none]
  rw [hsome]
  cases rest with
  | nil => exact ⟨fun _ => Pointer.unambiguous_nil, fun _ => rfl⟩
  | cons next rest =>
      constructor
      · intro h
        obtain ⟨out, hout⟩ := Option.isSome_iff_exists.mp h
        exact unambiguous_of_addAt? (by rwa [grow?, if_pos rfl] at hout)
      · intro h
        rw [grow?_null h]
        rfl

theorem applyRelaxed_add_below_missing_of_indices :
    (∃ out, applyRelaxed (.object openDocument)
        (.object (addition "/spec/rules/0/-" (.string "y"))) = .ok out) ↔
      Pointer.Unambiguous ["0", "-"] := by
  have hop : Operation.ofJson? (.object (addition "/spec/rules/0/-" (.string "y"))) =
      some (.add (["spec"] ++ "rules" :: ["0", "-"]) (.string "y")) := by decide +kernel
  exact applyRelaxed_add_below_missing_iff hop rfl rfl

end Json

namespace Patcher

open Json

theorem patchAttributes_eq_operation_error {raw : Json} {r : Resource} {path : String}
    {fault : OperationFault}
    (hpayload : (⟨.jsonPatch, .array [raw]⟩ : AttributePatch).payloadJson? = some (.array [raw]))
    (h : applyRelaxed (.object r.attributes) raw = .error (.operation path fault)) :
    (ofOperations r.id [raw]).patchAttributes [r] = .error (.patch (.operation r.id path fault)) := by
  have hpatched : (⟨.jsonPatch, .array [raw]⟩ : AttributePatch).patched r.id r.attributes =
      .error (.patch (.operation r.id path fault)) := by
    simp only [AttributePatch.patched, hpayload, applyAllRelaxed, h]
    rfl
  rw [patchAttributes, ofOperations, Option.getD_some, AttributePatch.applyAll_singleton,
    AttributePatch.apply, if_pos rfl, hpatched]
  rfl

/-- An array is created before an index with a leading zero and before a `-` that others follow,
but nothing can be added in it. -/
theorem not_patchAttributes_of_loose_index :
    Operation.ofJson? (.object (addition "/list/01" (.string "x"))) =
        some (.add ["list", "01"] (.string "x")) ∧
      (ofOperations "a" [.object (addition "/list/01" (.string "x"))]).patchAttributes
          [.new "a" .kubernetes []] =
        .error (.patch (.operation "a" "/list/01" .invalidPath)) ∧
      Operation.ofJson? (.object (addition "/list/-/name" (.string "x"))) =
        some (.add ["list", "-", "name"] (.string "x")) ∧
      (ofOperations "a" [.object (addition "/list/-/name" (.string "x"))]).patchAttributes
          [.new "a" .kubernetes []] =
        .error (.patch (.operation "a" "/list/-/name" .invalidPath)) := by
  have hpayload : ∀ path ∈ ["/list/01", "/list/-/name"],
      (⟨.jsonPatch, .array [.object (addition path (.string "x"))]⟩ : AttributePatch).payloadJson? =
        some (.array [.object (addition path (.string "x"))]) := by decide +kernel
  refine ⟨by decide +kernel, ?_, by decide +kernel, ?_⟩
  · apply patchAttributes_eq_operation_error (r := .new "a" .kubernetes [])
      (hpayload "/list/01" (by decide))
    cbv
  · apply patchAttributes_eq_operation_error (r := .new "a" .kubernetes [])
      (hpayload "/list/-/name" (by decide))
    cbv

end Patcher

end ResourceGraph
