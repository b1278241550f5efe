import ResourceGraph.Yaml.Token.Lexer

namespace ResourceGraph.Yaml

inductive Node where
  | scalar (anchor : Option String) (tag : Option Tag) (style : Style) (text : String)
  | sequence (anchor : Option String) (tag : Option Tag) (items : List Node)
  | mapping (anchor : Option String) (tag : Option Tag) (entries : List (Node × Node))
  | alias (name : String)
  deriving Repr, Inhabited

namespace Node

def absent : Node := .scalar none none .plain ""

abbrev Handles := List (String × Spelling)

def standardHandles : Handles :=
  [("!", [some '!']), ("!!", Tag.standardPrefix.toList.map some)]

def resolveTag (handles : Handles) (handle : String) (suffix : Spelling) : Option Tag :=
  if handle = "" then some (.ofSpelling [] suffix)
  else (handles.find? fun e => e.1 = handle).map fun e => .ofSpelling e.2 suffix

/-- An anchor and a tag in any order, each at most once. -/
def properties (handles : Handles) :
    List Token → Option (Option String × Option Tag × List Token)
  | .anchor a :: .tag h s :: rest => (resolveTag handles h s).map fun t => (some a, some t, rest)
  | .tag h s :: .anchor a :: rest => (resolveTag handles h s).map fun t => (some a, some t, rest)
  | .anchor a :: rest => some (some a, none, rest)
  | .tag h s :: rest => (resolveTag handles h s).map fun t => (none, some t, rest)
  | rest => some (none, none, rest)

/-- The context in which a node is read: inside flow brackets, in a block, or as the value of a
block mapping, where a sequence need not be indented. -/
inductive Context where
  | flow
  | block
  | blockValue

/-- Tokens before which a position of a block mapping is empty. -/
def endsBlockPart : List Token → Bool
  | [] | .key :: _ | .value :: _ | .blockEnd :: _ => true
  | _ => false

/-- Tokens before which a position of a flow collection is empty. -/
def endsFlowPart (close : Token) : List Token → Bool
  | [] => true
  | t :: _ => t == .flowEntry || t == close

mutual

def read (handles : Handles) : Nat → Context → List Token → Option (Node × List Token)
  | 0, _, _ => none
  | fuel + 1, context, tokens =>
      match tokens with
      | .alias name :: rest => some (.alias name, rest)
      | _ => do
          let (anchor, tag, tokens) ← properties handles tokens
          match context, tokens with
          | .blockValue, .blockEntry :: _ =>
              let (items, rest) ← entries handles fuel false tokens
              return (.sequence anchor tag items, rest)
          | _, .scalar style text :: rest => return (.scalar anchor tag style text, rest)
          | _, .flowSequenceStart :: rest =>
              let (items, rest) ← flowItems handles fuel true rest
              return (.sequence anchor tag items, rest)
          | _, .flowMappingStart :: rest =>
              let (pairs, rest) ← flowPairs handles fuel true rest
              return (.mapping anchor tag pairs, rest)
          | .block, .blockSequenceStart :: rest | .blockValue, .blockSequenceStart :: rest =>
              let (items, rest) ← entries handles fuel true rest
              return (.sequence anchor tag items, rest)
          | .block, .blockMappingStart :: rest | .blockValue, .blockMappingStart :: rest =>
              let (pairs, rest) ← blockPairs handles fuel rest
              return (.mapping anchor tag pairs, rest)
          | _, _ =>
              if anchor.isSome || tag.isSome then return (.scalar anchor tag .plain "", tokens)
              else none

def entries (handles : Handles) : Nat → Bool → List Token → Option (List Node × List Token)
  | 0, _, _ => none
  | fuel + 1, indented, tokens =>
      match tokens with
      | .blockEntry :: rest => do
          let empty := match rest with
            | .blockEntry :: _ => true
            | .blockEnd :: _ => true
            | .key :: _ | .value :: _ => !indented
            | _ => false
          let (item, rest) ←
            if empty then some (absent, rest) else read handles fuel .block rest
          let (items, rest) ← entries handles fuel indented rest
          return (item :: items, rest)
      | .blockEnd :: rest => if indented then some ([], rest) else some ([], tokens)
      | _ => if indented then none else some ([], tokens)

def blockPairs (handles : Handles) : Nat → List Token → Option (List (Node × Node) × List Token)
  | 0, _ => none
  | fuel + 1, tokens =>
      match tokens with
      | .key :: rest => do
          let (k, rest) ←
            if endsBlockPart rest then some (absent, rest) else read handles fuel .blockValue rest
          let (v, rest) ← match rest with
            | .value :: rest =>
                if endsBlockPart rest then some (absent, rest)
                else read handles fuel .blockValue rest
            | _ => some (absent, rest)
          let (pairs, rest) ← blockPairs handles fuel rest
          return ((k, v) :: pairs, rest)
      | .blockEnd :: rest => some ([], rest)
      | _ => none

/-- The items of a flow sequence up to its bracket. A key makes a mapping of one pair. -/
def flowItems (handles : Handles) : Nat → Bool → List Token → Option (List Node × List Token)
  | 0, _, _ => none
  | fuel + 1, first, tokens =>
      let item (tokens : List Token) : Option (List Node × List Token) :=
        match tokens with
        | .flowSequenceEnd :: rest => some ([], rest)
        | .key :: rest => do
            let (pair, rest) ← flowPair handles fuel rest
            let (items, rest) ← flowItems handles fuel false rest
            return (.mapping none none [pair] :: items, rest)
        | _ => do
            let (x, rest) ← read handles fuel .flow tokens
            let (items, rest) ← flowItems handles fuel false rest
            return (x :: items, rest)
      match tokens with
      | .flowSequenceEnd :: rest => some ([], rest)
      | .flowEntry :: rest => if first then item tokens else item rest
      | _ => if first then item tokens else none

/-- The pair after a key token inside a flow sequence. -/
def flowPair (handles : Handles) : Nat → List Token → Option ((Node × Node) × List Token)
  | 0, _ => none
  | fuel + 1, tokens => do
      let ends (tokens : List Token) := endsFlowPart .flowSequenceEnd tokens
      let (k, rest) ← match tokens with
        | [] => none
        | t :: rest =>
            if t == .value || ends tokens then some (absent, rest)
            else read handles fuel .flow tokens
      match rest with
      | .value :: rest =>
          if ends rest then return ((k, absent), rest)
          else
            let (v, rest) ← read handles fuel .flow rest
            return ((k, v), rest)
      | _ => return ((k, absent), rest)

/-- The pairs of a flow mapping up to its brace. A node alone is a key without a value. -/
def flowPairs (handles : Handles) :
    Nat → Bool → List Token → Option (List (Node × Node) × List Token)
  | 0, _, _ => none
  | fuel + 1, first, tokens =>
      let ends (tokens : List Token) := endsFlowPart .flowMappingEnd tokens
      let pair (tokens : List Token) : Option (List (Node × Node) × List Token) :=
        match tokens with
        | .flowMappingEnd :: rest => some ([], rest)
        | .key :: rest => do
            let (k, rest) ← match rest with
              | .value :: _ => some (absent, rest)
              | _ => if ends rest then some (absent, rest) else read handles fuel .flow rest
            let (v, rest) ← match rest with
              | .value :: rest =>
                  if ends rest then some (absent, rest) else read handles fuel .flow rest
              | _ => some (absent, rest)
            let (pairs, rest) ← flowPairs handles fuel false rest
            return ((k, v) :: pairs, rest)
        | _ => do
            let (k, rest) ← read handles fuel .flow tokens
            let (pairs, rest) ← flowPairs handles fuel false rest
            return ((k, absent) :: pairs, rest)
      match tokens with
      | .flowMappingEnd :: rest => some ([], rest)
      | .flowEntry :: rest => if first then pair tokens else pair rest
      | _ => if first then pair tokens else none

end

/-- The directives before a document: one version, `1.1` or `1.2`, and handles, each once. -/
def directives : Bool → Handles → List Token → Option (Handles × List Token)
  | versioned, handles, .versionDirective major minor :: rest =>
      if versioned || major ≠ 1 || (minor ≠ 1 && minor ≠ 2) then none
      else directives true handles rest
  | versioned, handles, .tagDirective handle expansion :: rest =>
      if handles.any (·.1 == handle) then none
      else directives versioned (handles ++ [(handle, expansion)]) rest
  | _, handles, rest =>
      some (handles ++ standardHandles.filter (fun e => !handles.any (·.1 == e.1)), rest)

/-- The only document of a stream; an empty stream has none (`some none`). -/
def ofTokens? (tokens : List Token) : Option (Option Node) :=
  let fuel := 2 * tokens.length + 2
  let finish (result : Node × List Token) : Option (Option Node) :=
    if (result.2.dropWhile (· == .documentEnd)).isEmpty then some (some result.1) else none
  match tokens with
  | [] => some none
  | .versionDirective _ _ :: _ | .tagDirective _ _ :: _ | .documentStart :: _ => do
      let (handles, rest) ← directives false [] tokens
      match rest with
      | .documentStart :: rest =>
          match rest with
          | [] | .versionDirective _ _ :: _ | .tagDirective _ _ :: _ | .documentStart :: _
          | .documentEnd :: _ => finish (absent, rest)
          | _ => (read handles fuel .block rest).bind finish
      | _ => none
  | _ => (read standardHandles fuel .block tokens).bind finish

end Node

end ResourceGraph.Yaml
