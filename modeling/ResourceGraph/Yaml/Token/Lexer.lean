import ResourceGraph.Yaml.Token.Tag

/-!
From text to tokens. In block context the columns of keys and dashes open and close blocks. A place
where a key may begin is remembered until a colon confirms it; the tokens that announce the key are
then inserted at that place.
-/

namespace ResourceGraph.Yaml.Lexer

/-- A place where a key may have begun: how many tokens precede it and where it stands. It is
required when a key is the only thing that can begin there. -/
structure Candidate where
  required : Bool
  tokens : Nat
  index : Nat
  line : Nat
  column : Nat

structure State where
  cursor : Cursor
  tokens : Array Token
  /-- the columns of the open blocks, the innermost first; `-1` outside all blocks -/
  indent : Int
  outer : List Int
  /-- a key may begin at the next token -/
  keyAllowed : Bool
  /-- the candidate of this flow level, and those of the enclosing ones -/
  candidate : Option Candidate
  enclosing : List (Option Candidate)

namespace State

def start (text : List Char) : State := ⟨Cursor.start text, #[], -1, [], true, none, []⟩

def inFlow (s : State) : Bool := !s.enclosing.isEmpty

def emit (s : State) (t : Token) : State := { s with tokens := s.tokens.push t }

def insertAt (s : State) (position : Nat) (t : Token) : State :=
  { s with tokens := s.tokens.insertIdxIfInBounds position t }

/-- Close the blocks to the right of a column. -/
def closeBlocks (column : Int) : List Int → Int → Array Token → Int × List Int × Array Token
  | [], indent, tokens => (indent, [], tokens)
  | i :: outer, indent, tokens =>
      if column < indent then closeBlocks column outer i (tokens.push .blockEnd)
      else (indent, i :: outer, tokens)

def unroll (s : State) (column : Int) : State :=
  if s.inFlow then s
  else
    let (indent, outer, tokens) := closeBlocks column s.outer s.indent s.tokens
    { s with indent, outer, tokens }

/-- Open a block at a column right of the current one, its token inserted at a position. -/
def roll (s : State) (column : Nat) (position : Nat) (t : Token) : State :=
  if s.inFlow || (column : Int) ≤ s.indent then s
  else { s.insertAt position t with indent := column, outer := s.indent :: s.outer }

def dropCandidate (s : State) : Option State :=
  if s.candidate.any (·.required) then none else some { s with candidate := none }

def saveCandidate (s : State) : Option State :=
  if !s.keyAllowed then some s
  else
    let c := s.cursor
    (dropCandidate s).map fun s => { s with
      candidate :=
        some ⟨!s.inFlow && s.indent == c.column, s.tokens.size, c.index, c.line, c.column⟩ }

/-- A key stands on one line and takes at most 1024 bytes. -/
def isStale (c : Cursor) (k : Candidate) : Bool := k.line < c.line || k.index + 1024 < c.index

/-- Forget the candidates that can no longer be keys, and fail if one of them had to be. -/
def dropStale (s : State) : Option State :=
  let stale (k : Option Candidate) : Bool := k.any (isStale s.cursor)
  let all := s.candidate :: s.enclosing
  if all.any fun k => stale k && k.any (·.required) then none
  else
    let keep (k : Option Candidate) : Option Candidate := if stale k then none else k
    some { s with candidate := keep s.candidate, enclosing := s.enclosing.map keep }

/-- Skip blanks, comments and line breaks, and a byte order mark at the start of a line, which
counts as one column. A tab is skipped where no key may begin. A line break in block context allows
a key after it. -/
def skipToToken : Nat → State → State
  | 0, s => s
  | fuel + 1, s =>
      let c := s.cursor
      let c := if c.column = 0 ∧ c.nextIs byteOrderMark then c.advance 1 else c
      let c := c.skipWhile fun x => x == ' ' || (x == '\t' && (s.inFlow || !s.keyAllowed))
      let c := if c.nextIs '#' then c.skipLine else c
      if c.satisfies isBreak then
        skipToToken fuel { s with cursor := c.skipBreak, keyAllowed := s.keyAllowed || !s.inFlow }
      else { s with cursor := c }

def indicator (s : State) (n : Nat) (t : Token) : State :=
  { s.emit t with cursor := s.cursor.advance n }

def outsideBlocks (s : State) : Option State :=
  (s.unroll (-1)).dropCandidate.map fun s => { s with keyAllowed := false }

def openFlow (s : State) (t : Token) : Option State := do
  let s ← s.saveCandidate
  return { s.indicator 1 t with
    enclosing := s.candidate :: s.enclosing, candidate := none, keyAllowed := true }

def closeFlow (s : State) (t : Token) : Option State := do
  let s ← s.dropCandidate
  let s := match s.enclosing with
    | [] => s
    | k :: rest => { s with candidate := k, enclosing := rest }
  return { s.indicator 1 t with keyAllowed := false }

def blockEntry (s : State) : Option State := do
  if !s.inFlow && !s.keyAllowed then none
  let s := s.roll s.cursor.column s.tokens.size .blockSequenceStart
  let s ← s.dropCandidate
  return { s.indicator 1 .blockEntry with keyAllowed := true }

def explicitKey (s : State) : Option State := do
  if !s.inFlow && !s.keyAllowed then none
  let s := s.roll s.cursor.column s.tokens.size .blockMappingStart
  let s ← s.dropCandidate
  return { s.indicator 1 .key with keyAllowed := !s.inFlow }

/-- A colon confirms the candidate as a key; without one it follows an explicit key. -/
def value (s : State) : Option State :=
  match s.candidate with
  | some k =>
      -- Both are inserted at one position, so that the start of the block precedes the key.
      let s := (s.insertAt k.tokens .key).roll k.column k.tokens .blockMappingStart
      some { s.indicator 1 .value with candidate := none, keyAllowed := false }
  | none =>
      if !s.inFlow && !s.keyAllowed then none
      else
        let s := s.roll s.cursor.column s.tokens.size .blockMappingStart
        some { s.indicator 1 .value with keyAllowed := !s.inFlow }

def anchorName (c : Cursor) : Option (String × Cursor) :=
  let (name, c) := (c.advance 1).takeWhile isWord
  let ends := c.blankOrEndAt 0 ||
    c.satisfies fun x => x ∈ ['?', ':', ',', ']', '\x7d', '%', '@', Char.ofNat 96]
  if name.isEmpty || !ends then none else some (String.ofList name, c)

def token (s : State) : Option (State × Bool) :=
  let c := s.cursor
  let more (s : Option State) : Option (State × Bool) := s.map (·, true)
  match c.text with
  | [] => do
      let s ← s.outsideBlocks
      return (s, false)
  | x :: _ =>
      let apart := c.blankOrEndAt 1
      if c.column = 0 ∧ x = '%' then do
        let s ← s.outsideBlocks
        let (t, c) ← Tag.directive c
        return ({ s.emit t with cursor := c }, true)
      else if c.atIndicator '-' then more (s.outsideBlocks.map (·.indicator 3 .documentStart))
      else if c.atIndicator '.' then more (s.outsideBlocks.map (·.indicator 3 .documentEnd))
      else if x = '[' then more (s.openFlow .flowSequenceStart)
      else if x = '\x7b' then more (s.openFlow .flowMappingStart)
      else if x = ']' then more (s.closeFlow .flowSequenceEnd)
      else if x = '\x7d' then more (s.closeFlow .flowMappingEnd)
      else if x = ',' then
        more (s.dropCandidate.map fun s => { s.indicator 1 .flowEntry with keyAllowed := true })
      else if x = '-' ∧ apart then more s.blockEntry
      else if x = '?' ∧ (s.inFlow ∨ apart) then more s.explicitKey
      else if x = ':' ∧ (s.inFlow ∨ apart) then more s.value
      else if x = '*' ∨ x = '&' then do
        let s ← s.saveCandidate
        let (name, c) ← anchorName c
        return ({ s.emit (if x = '*' then .alias name else .anchor name) with
          cursor := c, keyAllowed := false }, true)
      else if x = '!' then do
        let s ← s.saveCandidate
        let (t, c) ← Tag.read s.inFlow c
        return ({ s.emit t with cursor := c, keyAllowed := false }, true)
      else if (x = '|' ∨ x = '>') ∧ !s.inFlow then do
        let s ← s.dropCandidate
        let (text, c) ← Scalar.block (x = '|') s.indent c
        let style : Style := if x = '|' then .literal else .folded
        return ({ s.emit (.scalar style (String.ofList text)) with
          cursor := c, keyAllowed := true }, true)
      else if x = '"' ∨ x = Char.ofNat 39 then do
        let s ← s.saveCandidate
        let (text, c) ← Scalar.quoted (x ≠ '"') c
        return ({ s.emit (.scalar .quoted (String.ofList text)) with
          cursor := c, keyAllowed := false }, true)
      else
        let special := x ∈ ['-', '?', ':', ',', '[', ']', '\x7b', '\x7d', '#', '&', '*', '!', '|',
          '>', Char.ofNat 39, '"', '%', '@', Char.ofNat 96] || isBlank x || isBreak x
        -- An indicator that does not stand apart may begin a plain scalar.
        let plain := !special || (x == '-' && !(c.text[1]?.any isBlank)) ||
          (!s.inFlow && (x == '?' || x == ':') && !apart)
        if !plain then none
        else do
          let s ← s.saveCandidate
          let (text, c, broken) ← Scalar.plain s.inFlow (s.indent + 1).toNat c
          return ({ s.emit (.scalar .plain (String.ofList text)) with
            cursor := c, keyAllowed := broken }, true)

/-- Read one token, after the tokens that a new column closes before it. -/
def next (s : State) : Option (State × Bool) := do
  let s := skipToToken (s.cursor.bound + 1) s
  let s ← s.dropStale
  (s.unroll s.cursor.column).token

def run : Nat → State → Option State
  | 0, _ => none
  | fuel + 1, s => do
      let (s, more) ← s.next
      if more then run fuel s else return s

end State

end ResourceGraph.Yaml.Lexer

namespace ResourceGraph.Yaml

/-- The tokens of a text; none if it holds a character that no text may hold, or if it breaks a
rule of the tokens. -/
def Token.scan? (text : String) : Option (List Token) := do
  let chars := text.toList
  if !chars.all isAllowed then none
  let s ← Lexer.State.run (chars.length + 2) (Lexer.State.start chars)
  return s.tokens.toList

end ResourceGraph.Yaml
