namespace ResourceGraph.Yaml

/-- The characters of a tag as they are spelled. Octets that belong to no character spell none. -/
abbrev Spelling := List (Option Char)

def Spelling.identifier (s : Spelling) : Spelling := s.takeWhile (· != some '\x00')

inductive ScalarType where
  | null
  | bool
  | int
  | float
  deriving DecidableEq, Repr

def ScalarType.ofName? (name : String) : Option ScalarType :=
  if name = "null" then some .null
  else if name = "bool" then some .bool
  else if name = "int" then some .int
  else if name = "float" then some .float
  else none

/-- What a tag says: the type of a scalar, a local name, or, when it starts like a local tag and is
no text, nothing. Under any other tag a scalar is a text. -/
inductive Tag where
  | standard (type : ScalarType)
  | named (name : String)
  | unspelled
  | other
  deriving DecidableEq, Repr

namespace Tag

/-- What the names of standard types follow. -/
def standardPrefix : String := "tag:yaml.org,2002:"

/-- A tag that is a text: a local one is `!` and a name, and the name of a lone `!` is `!`. -/
def ofChars : List Char → Tag
  | ['!'] => .named "!"
  | '!' :: name => .named (String.ofList name)
  | cs =>
      if cs.take standardPrefix.length = standardPrefix.toList then
        match ScalarType.ofName? (String.ofList (cs.drop standardPrefix.length)) with
        | some type => .standard type
        | none => .other
      else .other

def ofSpelling (expansion suffix : Spelling) : Tag :=
  let spelled := expansion.identifier ++ suffix.identifier
  match spelled.mapM id with
  | some cs => ofChars cs
  | none => if spelled.head? = some (some '!') then .unspelled else .other

def name? : Tag → Option String
  | .named name => some name
  | _ => none

/-- The name under which a local tag is known: a further `!` before it does not count. -/
def shownName (name : String) : String :=
  match name.toList with
  | '!' :: c :: rest => String.ofList (c :: rest)
  | _ => name

end Tag

end ResourceGraph.Yaml
