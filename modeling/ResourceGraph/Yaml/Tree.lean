import ResourceGraph.Form
import ResourceGraph.Yaml.Node

/-!
A document as its reader sees it: aliases are replaced by what they stand for. An alias refers to
the number that its name had when the alias was read; an anchor takes as its number how many names
are known, and the latest anchor with a number owns it. Only a bounded number of aliases is
followed, and only where the reader looks: those beyond, those nested too deeply, and what is
ignored are left unreadable.
-/

namespace ResourceGraph.Yaml

inductive Tree where
  | scalar (tag : Option Tag) (style : Style) (text : String)
  | sequence (tag : Option Tag) (items : List Tree)
  | mapping (tag : Option Tag) (entries : List (Tree × Tree))
  | alias (number : Nat)
  | unreadable
  deriving Repr, Inhabited

namespace Tree

/-- What is known while anchors are numbered: the number of each name, how many anchors were met,
and the numbered trees with the rank of their anchor. -/
structure Anchors where
  names : List (String × Nat)
  met : Nat
  trees : List (Nat × Nat × Tree)

namespace Anchors

def number? (a : Anchors) (name : String) : Option Nat :=
  (a.names.find? fun e => e.1 = name).map (·.2)

/-- A new anchor: its number and rank. -/
def define (a : Anchors) (name : String) : (Nat × Nat) × Anchors :=
  let n := a.names.length
  ((n, a.met), { a with
    names := (name, n) :: a.names.filter (fun e => e.1 ≠ name), met := a.met + 1 })

def tree? (a : Anchors) (n : Nat) : Option Tree :=
  let owners := a.trees.filter fun e => e.1 = n
  (owners.foldl (fun best e => match best with
    | some (rank, t) => if rank < e.2.1 then some e.2 else some (rank, t)
    | none => some e.2) none).map Prod.snd

end Anchors

mutual

/-- Number the anchors of a node; none if an alias names no anchor before it. -/
def ofNode? (a : Anchors) : Node → Option (Tree × Anchors)
  | .alias name => (a.number? name).map fun n => (.alias n, a)
  | .scalar anchor tag style text => some (owned anchor a fun a => (.scalar tag style text, a))
  -- A collection takes its number before its items do, and is known after them.
  | .sequence anchor tag items =>
      let (own, a) := opened anchor a
      (ofItems? a items).map fun (xs, a) => closed own (.sequence tag xs) a
  | .mapping anchor tag entries =>
      let (own, a) := opened anchor a
      (ofEntries? a entries).map fun (es, a) => closed own (.mapping tag es) a
where
  opened (anchor : Option String) (a : Anchors) : Option (Nat × Nat) × Anchors :=
    match anchor with
    | none => (none, a)
    | some name => let (own, a) := a.define name; (some own, a)
  closed (own : Option (Nat × Nat)) (t : Tree) (a : Anchors) : Tree × Anchors :=
    match own with
    | none => (t, a)
    | some (n, rank) => (t, { a with trees := (n, rank, t) :: a.trees })
  owned (anchor : Option String) (a : Anchors) (f : Anchors → Tree × Anchors) : Tree × Anchors :=
    let (own, a) := opened anchor a
    let (t, a) := f a
    closed own t a

def ofItems? (a : Anchors) : List Node → Option (List Tree × Anchors)
  | [] => some ([], a)
  | x :: rest => do
      let (t, a) ← ofNode? a x
      let (ts, a) ← ofItems? a rest
      return (t :: ts, a)

def ofEntries? (a : Anchors) : List (Node × Node) → Option (List (Tree × Tree) × Anchors)
  | [] => some ([], a)
  | (k, v) :: rest => do
      let (k, a) ← ofNode? a k
      let (v, a) ← ofNode? a v
      let (es, a) ← ofEntries? a rest
      return ((k, v) :: es, a)

end

mutual

/-- How many marks a parser meets in a tree: one for a leaf, and two around a collection. -/
def size : Tree → Nat
  | .sequence _ items => sizeItems items + 2
  | .mapping _ entries => sizeEntries entries + 2
  | _ => 1

def sizeItems : List Tree → Nat
  | [] => 0
  | x :: rest => x.size + sizeItems rest

def sizeEntries : List (Tree × Tree) → Nat
  | [] => 0
  | (k, v) :: rest => k.size + v.size + sizeEntries rest

end

def formUnder (form : Form) : Tree → Form
  | .scalar _ _ name => form.member name
  | _ => form.others

/-- What a reader sees of a tree to a nesting of at most `fuel`; the state counts the aliases that
may still be followed. Below a local tag the keys of a value, and the keys in these, are `bare`:
they have no tags of their own, unless an alias stands for them. -/
def view (a : Anchors) : Nat → Form → Bool → Tree → StateM Nat Tree
  | 0, _, _, _ | _, .ignored, _, _ => pure .unreadable
  | fuel + 1, form, _, .alias n => do
      match ← get, a.tree? n with
      | left + 1, some t => do
          set left
          view a fuel form false t
      | _, _ => pure .unreadable
  | fuel + 1, form, bare, .sequence tag items => do
      let xs ← (form.withItems items).mapM fun (form, x) => view a fuel form false x
      pure (.sequence (if bare then none else tag) xs)
  | fuel + 1, form, bare, .mapping tag entries => do
      let keysBare := match form with
        | .whole => bare || (tag.bind Tag.name?).isSome
        | _ => false
      let es ← entries.mapM fun (k, v) => do
        let k ← view a fuel .whole keysBare k
        let v ← view a fuel (formUnder form k) false v
        pure (k, v)
      pure (.mapping (if bare then none else tag) es)
  | _ + 1, _, bare, .scalar tag style text =>
      pure (.scalar (if bare then none else tag) style text)
  | _ + 1, _, _, .unreadable => pure .unreadable

/-- A collection inside more than this many others is never read. -/
def depthLimit : Nat := 128

/-- How many aliases may be followed for each mark of a document. -/
def aliasesPerMark : Nat := 100

/-- The document of a text for a reader. An empty stream is read like a document in which nothing is
written. -/
def read? (form : Form) (text : String) : Option Tree := do
  let tokens ← Token.scan? text
  let node ← Node.ofTokens? tokens
  match node with
  | none => return .scalar none .plain ""
  | some node =>
      let (t, a) ← ofNode? ⟨[], 0, []⟩ node
      -- An alias is a level of its own, hence twice as many levels as collections.
      return ((view a (2 * depthLimit + 4) form false t).run (aliasesPerMark * t.size)).1

end Tree

end ResourceGraph.Yaml
