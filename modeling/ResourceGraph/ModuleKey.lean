import ResourceGraph.Text.Split

/-!
Identities of module plugins: `<namespace>/<module>@<version>`. The version follows the last `@`,
the module name follows the last `/` before it.
-/

namespace ResourceGraph

structure ModuleKey where
  text : String
  deriving DecidableEq, Repr, Inhabited

namespace ModuleKey

def new (source version : String) : ModuleKey := ⟨source ++ "@" ++ version⟩

def source (k : ModuleKey) : String :=
  match Text.cutLast? '@' k.text.toList with
  | some (s, _) => String.ofList s
  | none => k.text

/-- The part after the last `@`, empty without one. -/
def version (k : ModuleKey) : String :=
  match Text.cutLast? '@' k.text.toList with
  | some (_, v) => String.ofList v
  | none => ""

def moduleName (k : ModuleKey) : String :=
  match Text.cutLast? '/' k.source.toList with
  | some (_, m) => String.ofList m
  | none => k.source

def namespace? (k : ModuleKey) : Option String :=
  (Text.cutLast? '/' k.source.toList).map fun p => String.ofList p.1

def before (a b : ModuleKey) : Bool := a.text ≤ b.text

def sort (keys : List ModuleKey) : List ModuleKey := keys.mergeSort before

end ModuleKey

end ResourceGraph
