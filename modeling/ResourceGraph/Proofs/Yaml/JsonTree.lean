import ResourceGraph.Proofs.Yaml.Folding
import ResourceGraph.Proofs.Yaml.JsonNode
import ResourceGraph.Yaml.Tree

namespace ResourceGraph.Json

open Yaml Yaml.Lexer.State

mutual

def tree : Json → Tree
  | .string s => .scalar none .quoted s
  | .array items => .sequence none (treesOfItems items)
  | .object members => .mapping none (treesOfMembers members)
  | .null => .scalar none .plain (text .null)
  | .bool b => .scalar none .plain (text (.bool b))
  | .number n => .scalar none .plain (text (.number n))

def treesOfItems : List Json → List Tree
  | [] => []
  | x :: rest => x.tree :: treesOfItems rest

def treesOfMembers : List (String × Json) → List (Tree × Tree)
  | [] => []
  | (k, x) :: rest => (.scalar none .quoted k, x.tree) :: treesOfMembers rest

end

theorem content?_of_isName {k : String} (h : isName k = true) : Scalar.content? k = some k := by
  rw [isName, fits, Bool.and_eq_true, Bool.not_eq_true', List.any_eq_false] at h
  refine (Scalar.content?_eq_iff k).2 (Scalar.isKept_of_unbroken fun x hx hgap => ?_)
  have hwritten : x ∈ (Writer.quoted k).toList := by
    rw [Writer.toList_quoted, List.cons_append, List.mem_cons, List.mem_append, List.mem_flatMap]
    refine .inr (.inl ⟨x, hx, ?_⟩)
    rw [Scalar.escape_of_isGap hgap]
    exact List.mem_singleton_self x
  have hunbroken := h.1 x hwritten
  rcases Scalar.isGap_iff.1 hgap with rfl | rfl | rfl | rfl
  · rfl
  · exact absurd (by decide) hunbroken
  · exact absurd (by decide) hunbroken
  · exact absurd (by decide) hunbroken

theorem content_of_isName {k : String} (h : isName k = true) : Scalar.content k = k := by
  rw [Scalar.content, content?_of_isName h]
  rfl

mutual

theorem ofNode?_node (j : Json) (hnames : j.names.all isName = true) (a : Tree.Anchors) :
    Tree.ofNode? a j.node = some ((j.mapTexts Scalar.content).tree, a) := by
  cases j with
  | null => rfl
  | bool b => rfl
  | number n => rfl
  | string s => rfl
  | array items =>
      rw [node, Tree.ofNode?]
      simp only [Tree.ofNode?.opened, ofItems?_nodes items hnames a]
      rfl
  | object members =>
      rw [node, Tree.ofNode?]
      simp only [Tree.ofNode?.opened, ofEntries?_nodes members hnames a]
      rfl

theorem ofItems?_nodes (items : List Json) (hnames : (namesOfItems items).all isName = true)
    (a : Tree.Anchors) :
    Tree.ofItems? a (nodesOfItems items) =
      some (treesOfItems (mapItems Scalar.content items), a) := by
  match items with
  | [] => rfl
  | x :: rest =>
      rw [namesOfItems, List.all_append, Bool.and_eq_true] at hnames
      rw [nodesOfItems, Tree.ofItems?, ofNode?_node x hnames.1 a]
      simp only [Option.bind_eq_bind, Option.bind_some, ofItems?_nodes rest hnames.2 a]
      rfl

theorem ofEntries?_nodes (members : List (String × Json))
    (hnames : (namesOfMembers members).all isName = true) (a : Tree.Anchors) :
    Tree.ofEntries? a (nodesOfMembers members) =
      some (treesOfMembers (mapMembers Scalar.content members), a) := by
  match members with
  | [] => rfl
  | (k, x) :: rest =>
      rw [namesOfMembers, List.all_cons, List.all_append, Bool.and_eq_true, Bool.and_eq_true]
        at hnames
      rw [nodesOfMembers, Tree.ofEntries?, content_of_isName hnames.1]
      simp only [Tree.ofNode?, Tree.ofNode?.owned, Tree.ofNode?.opened, Tree.ofNode?.closed,
        Option.bind_eq_bind, Option.bind_some, ofNode?_node x hnames.2.1 a,
        ofEntries?_nodes rest hnames.2.2 a]
      rfl

end

section Views

mutual

/-- The reader looks at all of a value. -/
def Covers (form : Form) : Json → Prop
  | .array items => form ≠ .ignored ∧ CoversItems form items
  | .object members => form ≠ .ignored ∧ CoversMembers form members
  | _ => form ≠ .ignored

def CoversItems (form : Form) : List Json → Prop
  | [] => True
  | x :: rest => Covers form.item x ∧ CoversItems form.afterItem rest

def CoversMembers (form : Form) : List (String × Json) → Prop
  | [] => True
  | (k, x) :: rest => Covers (form.member k) x ∧ CoversMembers form rest

end

theorem coversItems_each_iff {part : Form} (items : List Json) :
    CoversItems (.each part) items ↔ ∀ x ∈ items, Covers part x := by
  induction items with
  | nil => simp [CoversItems]
  | cons x rest ih =>
      rw [CoversItems, List.forall_mem_cons, ← ih]
      rfl

theorem coversMembers_iff {form : Form} (members : List (String × Json)) :
    CoversMembers form members ↔ ∀ e ∈ members, Covers (form.member e.1) e.2 := by
  induction members with
  | nil => simp [CoversMembers]
  | cons e rest ih => rw [CoversMembers, ih, List.forall_mem_cons]

mutual

theorem covers_whole (j : Json) : Covers .whole j ∧ Covers (.each .whole) j := by
  cases j with
  | array items =>
      have hitems := coversItems_whole items
      exact ⟨⟨nofun, hitems.1⟩, nofun, hitems.2⟩
  | object members =>
      have hmembers := coversMembers_whole members
      exact ⟨⟨nofun, hmembers.1⟩, nofun, hmembers.2⟩
  | _ => exact ⟨nofun, nofun⟩

theorem coversItems_whole (items : List Json) :
    CoversItems .whole items ∧ CoversItems (.each .whole) items := by
  match items with
  | [] => exact ⟨trivial, trivial⟩
  | x :: rest =>
      have hx := covers_whole x
      have hrest := coversItems_whole rest
      exact ⟨⟨hx.1, hrest.2⟩, hx.1, hrest.2⟩

theorem coversMembers_whole (members : List (String × Json)) :
    CoversMembers .whole members ∧ CoversMembers (.each .whole) members := by
  match members with
  | [] => exact ⟨trivial, trivial⟩
  | (k, x) :: rest =>
      have hx := covers_whole x
      have hrest := coversMembers_whole rest
      exact ⟨⟨hx.1, hrest.1⟩, hx.1, hrest.2⟩

end

mutual

theorem covers_mapTexts (f : String → String) (j : Json) {form : Form} :
    Covers form (j.mapTexts f) ↔ Covers form j := by
  cases j with
  | array items => exact and_congr_right fun _ => coversItems_mapItems f items
  | object members => exact and_congr_right fun _ => coversMembers_mapMembers f members
  | _ => rfl

theorem coversItems_mapItems (f : String → String) (items : List Json) {form : Form} :
    CoversItems form (mapItems f items) ↔ CoversItems form items := by
  match items with
  | [] => rfl
  | x :: rest =>
      rw [mapItems, CoversItems, covers_mapTexts f x, coversItems_mapItems f rest, CoversItems]

theorem coversMembers_mapMembers (f : String → String) (members : List (String × Json))
    {form : Form} : CoversMembers form (mapMembers f members) ↔ CoversMembers form members := by
  match members with
  | [] => rfl
  | (k, x) :: rest =>
      rw [mapMembers, CoversMembers, covers_mapTexts f x, coversMembers_mapMembers f rest,
        CoversMembers]

end

theorem view_scalar {form : Form} (h : form ≠ .ignored) (a : Tree.Anchors) (fuel : Nat)
    (bare : Bool) (style : Style) (t : String) :
    Tree.view a (fuel + 1) form bare (.scalar none style t) = pure (.scalar none style t) := by
  cases form <;> first | exact absurd rfl h | simp [Tree.view]

theorem view_sequence {form : Form} (h : form ≠ .ignored) (a : Tree.Anchors) (fuel : Nat)
    (bare : Bool) (items : List Tree) :
    Tree.view a (fuel + 1) form bare (.sequence none items) =
      ((form.withItems items).mapM fun e => Tree.view a fuel e.1 false e.2) >>= fun xs =>
        pure (.sequence none xs) := by
  rw [Tree.view, ite_self]
  exact h

theorem view_mapping {form : Form} (h : form ≠ .ignored) (a : Tree.Anchors) (fuel : Nat)
    (bare : Bool) (entries : List (Tree × Tree)) : ∃ keysBare,
    Tree.view a (fuel + 1) form bare (.mapping none entries) =
      (entries.mapM fun e => Tree.view a fuel .whole keysBare e.1 >>= fun k =>
        Tree.view a fuel (Tree.formUnder form k) false e.2 >>= fun v => pure (k, v)) >>= fun es =>
          pure (.mapping none es) := by
  cases form with
  | ignored => exact absurd rfl h
  | whole =>
      refine ⟨bare || ((none : Option Tag).bind Tag.name?).isSome, ?_⟩
      rw [Tree.view, ite_self]
  | parts fields others =>
      refine ⟨false, ?_⟩
      rw [Tree.view, ite_self]
      · exact h
      · exact fun h => nomatch h

mutual

theorem view_tree (j : Json) (a : Tree.Anchors) {fuel : Nat} {form : Form} (bare : Bool)
    (hdepth : j.depth < fuel) (hform : Covers form j) :
    Tree.view a fuel form bare j.tree = pure j.tree := by
  obtain ⟨fuel, rfl⟩ := Nat.exists_eq_add_of_lt (Nat.zero_lt_of_lt hdepth)
  rw [Nat.zero_add] at hdepth ⊢
  cases j with
  | null => exact view_scalar hform a fuel bare _ _
  | bool b => exact view_scalar hform a fuel bare _ _
  | number n => exact view_scalar hform a fuel bare _ _
  | string s => exact view_scalar hform a fuel bare _ _
  | array items =>
      have hitems : depthItems items < fuel := by simpa [depth] using hdepth
      rw [tree, view_sequence hform.1, view_items items a hitems hform.2, pure_bind]
  | object members =>
      obtain ⟨keysBare, hview⟩ := view_mapping hform.1 a fuel bare (treesOfMembers members)
      rw [tree, hview, view_members members a keysBare (by simpa [depth] using hdepth) hform.2,
        pure_bind]

theorem view_items (items : List Json) (a : Tree.Anchors) {fuel : Nat} {form : Form}
    (hdepth : depthItems items < fuel) (hform : CoversItems form items) :
    (form.withItems (treesOfItems items)).mapM (fun e => Tree.view a fuel e.1 false e.2) =
      pure (treesOfItems items) := by
  match items with
  | [] => rfl
  | x :: rest =>
      rw [depthItems, Nat.max_lt] at hdepth
      rw [treesOfItems, Form.withItems, List.mapM_cons, view_tree x a false hdepth.1 hform.1,
        pure_bind, view_items rest a hdepth.2 hform.2, pure_bind]

theorem view_members (members : List (String × Json)) (a : Tree.Anchors) (keysBare : Bool)
    {fuel : Nat} {form : Form} (hdepth : depthMembers members < fuel)
    (hform : CoversMembers form members) :
    ((treesOfMembers members).mapM fun e => Tree.view a fuel .whole keysBare e.1 >>= fun k =>
      Tree.view a fuel (Tree.formUnder form k) false e.2 >>= fun v => pure (k, v)) =
        pure (treesOfMembers members) := by
  match members with
  | [] => rfl
  | (k, x) :: rest =>
      rw [depthMembers, Nat.max_lt] at hdepth
      have hk : Tree.view a fuel .whole keysBare (.scalar none .quoted k) =
          pure (.scalar none .quoted k) := by
        obtain ⟨fuel, rfl⟩ := Nat.exists_eq_add_of_lt (Nat.zero_lt_of_lt hdepth.1)
        refine view_scalar ?_ a _ keysBare _ _
        exact nofun
      rw [treesOfMembers, List.mapM_cons, hk, pure_bind, Tree.formUnder,
        view_tree x a false hdepth.1 hform.1, pure_bind, pure_bind,
        view_members rest a keysBare hdepth.2 hform.2, pure_bind]

end

end Views

theorem read?_object {form : Form} (members : List (String × Json))
    (hdepth : (mapTexts Scalar.content (.object members)).depth < 2 * Tree.depthLimit + 4)
    (hform : Covers form (mapTexts Scalar.content (.object members))) :
    Tree.read? form (text (.object members)) =
      if ((texts (.object members)).all fun t => isPrintable t && isReadable t) &&
          (names (.object members)).all isName then
        some (mapTexts Scalar.content (.object members)).tree
      else none := by
  rw [Tree.read?, scan?_object]
  cases (texts (.object members)).all fun t => isPrintable t && isReadable t with
  | false => rfl
  | true =>
      rw [if_pos rfl, Bool.true_and]
      simp only [Option.bind_eq_bind, Option.bind_some, ofTokens?_object]
      cases hnames : (names (.object members)).all isName with
      | false => rfl
      | true =>
          simp only [if_true, Option.bind_some, ofNode?_node _ hnames,
            view_tree _ _ false hdepth hform]
          rfl

end ResourceGraph.Json
