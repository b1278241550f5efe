import ResourceGraph.Document
import ResourceGraph.Proofs.Json.Canonical
import ResourceGraph.Proofs.Yaml.JsonTree

namespace ResourceGraph

namespace Json

open Yaml

/-- YAML reads the written value as it is: every character of its texts may stand unescaped and is
kept, and every name of a member is found. -/
def isPortable (j : Json) : Bool :=
  (j.texts.all fun t => isPrintable t && Scalar.isKept t.toList) && j.names.all isName

section Fixed

variable {f : String → String}

mutual

theorem mapTexts_eq_self_iff (j : Json) (hnames : ∀ k ∈ j.names, f k = k) :
    j.mapTexts f = j ↔ ∀ t ∈ j.texts, f t = t := by
  cases j with
  | string s => simp [mapTexts, texts]
  | array items =>
      rw [mapTexts, array.injEq]
      exact mapItems_eq_self_iff items hnames
  | object members =>
      rw [mapTexts, object.injEq]
      exact mapMembers_eq_self_iff members hnames
  | _ => simp [mapTexts, texts]

theorem mapItems_eq_self_iff (items : List Json) (hnames : ∀ k ∈ namesOfItems items, f k = k) :
    mapItems f items = items ↔ ∀ t ∈ textsOfItems items, f t = t := by
  match items with
  | [] => simp [mapItems, textsOfItems]
  | x :: rest =>
      rw [namesOfItems, List.forall_mem_append] at hnames
      rw [mapItems, List.cons.injEq, mapTexts_eq_self_iff x hnames.1,
        mapItems_eq_self_iff rest hnames.2, textsOfItems, List.forall_mem_append]

theorem mapMembers_eq_self_iff (members : List (String × Json))
    (hnames : ∀ k ∈ namesOfMembers members, f k = k) :
    mapMembers f members = members ↔ ∀ t ∈ textsOfMembers members, f t = t := by
  match members with
  | [] => simp [mapMembers, textsOfMembers]
  | (k, x) :: rest =>
      rw [namesOfMembers, List.forall_mem_cons, List.forall_mem_append] at hnames
      rw [mapMembers, List.cons.injEq, Prod.mk.injEq, mapTexts_eq_self_iff x hnames.2.1,
        mapMembers_eq_self_iff rest hnames.2.2, textsOfMembers, List.forall_mem_cons,
        List.forall_mem_append]
      simp [hnames.1]

end

end Fixed

theorem isKept_iff (t : String) :
    Scalar.isKept t.toList = true ↔ isReadable t = true ∧ Scalar.content t = t := by
  rw [← Scalar.content?_eq_iff, isReadable, Scalar.content]
  cases Scalar.content? t <;> simp

/-- YAML reads the written value, perhaps with other texts. -/
def isAccepted (j : Json) : Bool :=
  (j.texts.all fun t => isPrintable t && isReadable t) && j.names.all isName

theorem isPortable_iff (j : Json) :
    j.isPortable = true ↔ j.isAccepted = true ∧ j.mapTexts Scalar.content = j := by
  simp only [isPortable, isAccepted, Bool.and_eq_true, List.all_eq_true]
  constructor
  · rintro ⟨htexts, hnames⟩
    have hkept : ∀ t ∈ j.texts, isReadable t = true ∧ Scalar.content t = t := fun t ht =>
      (isKept_iff t).1 (htexts t ht).2
    refine ⟨⟨fun t ht => ⟨(htexts t ht).1, (hkept t ht).1⟩, hnames⟩, ?_⟩
    exact (mapTexts_eq_self_iff j fun k hk => content_of_isName (hnames k hk)).2 fun t ht =>
      (hkept t ht).2
  · rintro ⟨⟨htexts, hnames⟩, hfixed⟩
    have hcontent := (mapTexts_eq_self_iff j fun k hk => content_of_isName (hnames k hk)).1 hfixed
    exact ⟨fun t ht => ⟨(htexts t ht).1, (isKept_iff t).2 ⟨(htexts t ht).2, hcontent t ht⟩⟩, hnames⟩

end Json

namespace Schema

open Json Yaml

variable {α : Type} {s : Schema α} {write : α → Json} {x x' : α}

theorem ofYamlText?_text (hobject : ∃ members, write x = .object members)
    (hmap : write x' = (write x).mapTexts Scalar.content)
    (hread : s.read? (.yaml 0 (write x').tree) = some x')
    (hdepth : (write x).depth < 2 * Tree.depthLimit + 4) (hcovers : Covers s.form (write x)) :
    s.ofYamlText? (write x).text = if (write x).isAccepted then some x' else none := by
  obtain ⟨members, hmembers⟩ := hobject
  rw [hmembers] at hmap hdepth hcovers
  rw [ofYamlText?, Document.ofYamlText?, hmembers, read?_object members, isAccepted, ← hmap]
  · split
    · exact hread
    · rfl
  · rwa [depth_mapTexts]
  · rwa [covers_mapTexts]

/-- A value that readers take for what it is, also once its texts are folded, is read back from its
text exactly when it is portable. -/
theorem ofYamlText?_eq_some_iff (hobject : ∃ members, write x = .object members)
    (hmap : write x' = (write x).mapTexts Scalar.content)
    (hread : s.read? (.yaml 0 (write x).tree) = some x)
    (hread' : s.read? (.yaml 0 (write x').tree) = some x')
    (hdepth : (write x).depth < 2 * Tree.depthLimit + 4) (hcovers : Covers s.form (write x)) :
    s.ofYamlText? (write x).text = some x ↔ (write x).isPortable = true := by
  rw [ofYamlText?_text hobject hmap hread' hdepth hcovers, isPortable_iff, ← hmap]
  cases (write x).isAccepted with
  | false => simp
  | true =>
      simp only [if_true, Option.some.injEq, true_and]
      constructor
      · exact congrArg write
      · intro hwrite
        rw [hwrite] at hread'
        exact Option.some.inj (hread'.symm.trans hread)

end Schema

end ResourceGraph
