import ResourceGraph.Proofs.Number.Value
import ResourceGraph.Proofs.Patcher.Shape

namespace ResourceGraph

open Json WorkloadPatch

namespace WorkloadPatch

variable {location : Location} {n : Number} {id : String}

section Outside

variable {p : Patcher} {t : Table} {attributes out : Dict Json}
  {environment : Option (List Variable)}

theorem value?_patchVariables (h : patchVariables id environment attributes = .ok out)
    (hoff : environment.isSome → ∀ i, ¬environmentAt i <+: location)
    (hn : (object attributes).value? location = some (.number n)) :
    (object out).value? location = some (.number n) := by
  obtain ⟨y, hy, hshape⟩ := (frame_of_patchVariables h hoff).1.exists_right hn
  rw [hy, hshape.eq_of_number]

theorem Table.value?_of_foldlM {ts : List Table} (h : ts.foldlM (run p) attributes = .ok out)
    (hoff : ∀ t ∈ ts, (t.patch? p).isSome → ¬t.location <+: location)
    (hn : (object attributes).value? location = some (.number n)) :
    (object out).value? location = some (.number n) := by
  obtain ⟨y, hy, hshape⟩ := sameShape_of_foldlM h hoff hn
  rw [hy, hshape.eq_of_number]

end Outside

end WorkloadPatch

namespace Patcher

/-- A location is in a table or in an environment that a patcher changes. -/
def Touches (p : Patcher) (location : Location) : Prop :=
  (∃ t : Table, (t.patch? p).isSome ∧ t.location <+: location) ∨
    p.environment.isSome ∧ ∃ i, environmentAt i <+: location

/-- A number that a patcher does not touch is still there, the same or as an integer. It keeps its
value exactly when it is not the decimal `2 ^ 63`. -/
theorem patchStructure_number {p : Patcher} {w w' : Resource} {location : Location} {n : Number}
    (h : p.patchStructure w = .ok w') (hoff : ¬p.Touches location)
    (hn : (object w.attributes).value? location = some (.number n)) :
    ∃ n', (object w'.attributes).value? location = some (.number n') ∧
      (n' = n ∨ ∃ k, n' = .int k) ∧ (n'.value = n.value ↔ ∀ d, n = .float d → d.value ≠ 2 ^ 63) := by
  obtain ⟨tables, attributes, htables, hvariables, rfl⟩ := patchStructure_eq_ok_iff.mp h
  rw [patchTables_eq_foldlM] at htables
  have hnormal : (object (normalizeMembers w.attributes)).value? location =
      some (.number n.normalize) := by
    have hsame := value?_normalize location (object w.attributes)
    rw [hn] at hsame
    exact hsame
  have hpatched : (object tables).value? location = some (.number n.normalize) :=
    Table.value?_of_foldlM htables (fun t _ ht hbelow => hoff (.inl ⟨t, ht, hbelow⟩)) hnormal
  exact ⟨n.normalize,
    value?_patchVariables hvariables (fun he i hi => hoff (.inr ⟨he, i, hi⟩)) hpatched,
    n.normalize_eq_or, n.value_normalize_iff⟩

def listening (labels : List (String × Json)) (entries : List Json) (port : Number) : Resource :=
  .new "api" .kubernetes
    [("metadata", .object [("labels", .object labels)]),
      ("spec", .object [("template", .object [("spec", .object [("containers",
        .array [.object [("env", .array entries), ("ports", .array [.number port])]])])])])]

def configuring : Patcher :=
  { labels := some [("team", "a")], podLabels := none, annotations := none, podAnnotations := none,
    environment := some [⟨"MODE", "debug", none⟩], attributePatches := none }

def configured (port : Number) : Resource :=
  listening [("team", .string "a")]
    [.object [("name", .string "MODE"), ("value", .string "debug")]] port

def firstPort : Location := Location.ofNames containers ++ [.item 0, .member "ports", .item 0]

theorem not_touches_firstPort : ¬configuring.Touches firstPort := by
  rintro (⟨t, -, ht⟩ | ⟨-, i, hi⟩)
  · revert ht
    cases t <;> decide
  · rw [environmentAt, firstPort, List.prefix_append_right_inj] at hi
    obtain ⟨-, hi⟩ := List.cons_prefix_cons.mp hi
    obtain ⟨henv, -⟩ := List.cons_prefix_cons.mp hi
    exact absurd henv (by decide)

theorem patchStructure_listening (port : Number) :
    configuring.patchStructure (listening [] [] port) = .ok (configured port.normalize) := by
  simp only [patchStructure, patchTables, patchTable?, configuring, patchTable, WorkloadPatch.labels,
    nested?, putNested, patchVariables, containers, patchContainersAt]
  rfl

theorem value?_firstPort (labels : List (String × Json)) (entries : List Json) (port : Number) :
    (object (listening labels entries port).attributes).value? firstPort = some (.number port) := rfl

theorem patchStructure_number_of_port :
    ∃ n', (object (configured (.int 8080)).attributes).value? firstPort = some (.number n') ∧
      n'.value = 8080 := by
  have hport : Double.value ⟨false, 8080 * 2 ^ 40, -40⟩ = 8080 := by norm_num [Double.value]
  have hrun := patchStructure_listening (.float ⟨false, 8080 * 2 ^ 40, -40⟩)
  obtain ⟨n', hn', -, hvalue⟩ :=
    patchStructure_number hrun not_touches_firstPort (value?_firstPort ..)
  refine ⟨n', hn', (hvalue.mpr ?_).trans hport⟩
  rintro d ⟨rfl⟩
  rw [hport]
  norm_num

/-- The decimal `2 ^ 63`, one more than the largest word. -/
def pastLargest : Double := ⟨false, 2 ^ 52, 11⟩

/-- The decimal `2 ^ 63` is taken for a word and becomes the largest one. -/
theorem not_patchStructure_number_of_limit :
    pastLargest.Canonical ∧ ¬configuring.Touches firstPort ∧
      configuring.patchStructure (listening [] [] (.float pastLargest)) =
        .ok (configured (.int 0x7FFFFFFFFFFFFFFF)) ∧
      (object (listening [] [] (.float pastLargest)).attributes).value? firstPort =
        some (.number (.float pastLargest)) ∧
      (object (configured (.int 0x7FFFFFFFFFFFFFFF)).attributes).value? firstPort =
        some (.number (.int 0x7FFFFFFFFFFFFFFF)) ∧
      (Number.int 0x7FFFFFFFFFFFFFFF).value ≠ (Number.float pastLargest).value := by
  refine ⟨by decide, not_touches_firstPort, ?_, value?_firstPort .., value?_firstPort .., ?_⟩
  · exact patchStructure_listening (.float pastLargest)
  · norm_num [Number.value, Double.value, pastLargest]

end Patcher

end ResourceGraph
