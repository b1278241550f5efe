/-!
How much of a document its reader looks at. What it ignores has to be well formed and nothing more:
there a text may be no text, a number may be too large, and a reference is not followed.
-/

namespace ResourceGraph

/-- Either nothing, or all of a value, or its parts: the members of an object by their names, or the
items of a list, which stand for the fields in their order. -/
inductive Form where
  | ignored
  | whole
  | parts (fields : List (String × Form)) (others : Form)
  deriving Repr, Inhabited

namespace Form

/-- A record: members that are not among its fields are ignored. -/
def record (fields : List (String × Form)) : Form := .parts fields .ignored

/-- A record that keeps its other members. -/
def openRecord (fields : List (String × Form)) : Form := .parts fields .whole

def each (part : Form) : Form := .parts [] part

def fields : Form → List (String × Form)
  | .parts fields _ => fields
  | _ => []

def names (f : Form) : List String := f.fields.map Prod.fst

def others : Form → Form
  | .ignored => .ignored
  | .whole => .whole
  | .parts _ others => others

def member (f : Form) (name : String) : Form :=
  match f.fields.find? fun e => e.1 == name with
  | some e => e.2
  | none => f.others

theorem member_eq_whole {f : Form} (h : ∀ e ∈ f.fields, e.2 = .whole) {name : String}
    (hname : name ∈ f.names) : f.member name = .whole := by
  obtain ⟨e, he, rfl⟩ := List.mem_map.1 hname
  have hfound : (f.fields.find? fun e' => e'.1 == e.1).isSome = true :=
    List.find?_isSome.2 ⟨e, he, beq_self_eq_true e.1⟩
  obtain ⟨e', he'⟩ := Option.isSome_iff_exists.1 hfound
  rw [member, he']
  exact h e' (List.mem_of_find?_eq_some he')

def item (f : Form) : Form :=
  match f.fields with
  | e :: _ => e.2
  | [] => f.others

def afterItem (f : Form) : Form := .parts f.fields.tail f.others

def withItems {α : Type} : Form → List α → List (Form × α)
  | _, [] => []
  | f, x :: rest => (f.item, x) :: f.afterItem.withItems rest

end Form

end ResourceGraph
