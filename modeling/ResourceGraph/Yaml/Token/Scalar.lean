import ResourceGraph.Yaml.Cursor

namespace ResourceGraph.Yaml.Scalar

/-- White space between two parts of a scalar: blanks of one line, or the first line break and the
breaks after it, where blanks at the ends of lines are dropped. -/
inductive Gap where
  | blanks (text : List Char)
  | breaks (first : List Char) (more : List Char)

/-- What a gap contributes: a single line feed becomes a space, further breaks stay. -/
def Gap.fold : Gap → List Char
  | .blanks text => text
  | .breaks ['\n'] [] => [' ']
  | .breaks ['\n'] more => more
  | .breaks first more => first ++ more

def Gap.hasBreak : Gap → Bool
  | .blanks _ => false
  | .breaks _ _ => true

def gap (indent : Nat) : Nat → Gap → Cursor → Option (Gap × Cursor)
  | 0, g, c => some (g, c)
  | fuel + 1, g, c =>
      match c.peek? with
      | none => some (g, c)
      | some x =>
          if isBlank x then
            match g with
            | .blanks text => gap indent fuel (.blanks (text ++ [x])) (c.advance 1)
            | .breaks _ _ =>
                if x == '\t' && c.column < indent then none else gap indent fuel g (c.advance 1)
          else if isBreak x then
            let (b, next) := c.lineBreak
            match g with
            | .blanks _ => gap indent fuel (.breaks b []) next
            | .breaks first more => gap indent fuel (.breaks first (more ++ b)) next
          else some (g, c)

def isFlowIndicator (c : Char) : Bool :=
  c == ',' || c == '[' || c == ']' || c == '\x7b' || c == '\x7d'

/-- The length of the run of non-blank characters that belongs to a plain scalar. In flow context
a colon must not stand directly before a flow indicator. -/
def plainRun (flow : Bool) : List Char → Option Nat
  | [] => some 0
  | x :: rest =>
      let next := rest.head?
      if isBlank x || isBreak x then some 0
      else if flow && x == ':' && next.any (fun y => isFlowIndicator y || y == '?') then none
      else if x == ':' && next.all (fun y => isBlank y || isBreak y) then some 0
      else if flow && isFlowIndicator x then some 0
      else (plainRun flow rest).map (· + 1)

def plainFrom (flow : Bool) (indent : Nat) :
    Nat → List Char → Gap → Cursor → Option (List Char × Cursor × Bool)
  | 0, done, g, c => some (done, c, g.hasBreak)
  | fuel + 1, done, g, c => do
      if c.atDocumentIndicator || c.nextIs '#' then return (done, c, g.hasBreak)
      let n ← plainRun flow c.text
      if n = 0 then return (done, c, g.hasBreak)
      let done := done ++ (g.fold ++ c.text.take n)
      let c := c.advance n
      if !c.satisfies (fun x => isBlank x || isBreak x) then return (done, c, false)
      let (g, next) ← gap indent (c.bound + 1) (.blanks []) c
      -- Outside brackets a line that is not indented enough belongs to the block around.
      if !flow && next.column < indent then return (done, next, g.hasBreak)
      plainFrom flow indent fuel done g next

/-- A plain scalar whose lines, in block context, are indented by at least `indent`. -/
def plain (flow : Bool) (indent : Nat) (c : Cursor) : Option (List Char × Cursor × Bool) :=
  plainFrom flow indent (c.bound + 1) [] (.blanks []) c

def hex? : Nat → Nat → List Char → Option Nat
  | 0, v, _ => some v
  | _ + 1, _, [] => none
  | n + 1, v, c :: rest =>
      if '0' ≤ c ∧ c ≤ '9' then hex? n (v * 16 + (c.toNat - '0'.toNat)) rest
      else if 'a' ≤ c ∧ c ≤ 'f' then hex? n (v * 16 + (c.toNat - 'a'.toNat + 10)) rest
      else if 'A' ≤ c ∧ c ≤ 'F' then hex? n (v * 16 + (c.toNat - 'A'.toNat + 10)) rest
      else none

/-- The character of an escape, named by the character after the backslash, and how many
characters the escape has. -/
def escape? (text : List Char) : Option (Char × Nat) :=
  let coded (n : Nat) (digits : List Char) : Option (Char × Nat) := do
    let v ← hex? n 0 digits
    if (0xD800 ≤ v ∧ v ≤ 0xDFFF) ∨ 0x10FFFF < v then none else some (Char.ofNat v, n + 1)
  match text with
  | [] => none
  | x :: rest =>
      match x with
      | '0' => some (Char.ofNat 0, 1)
      | 'a' => some ('\x07', 1)
      | 'b' => some ('\x08', 1)
      | 't' | '\t' => some ('\t', 1)
      | 'n' => some ('\n', 1)
      | 'v' => some ('\x0b', 1)
      | 'f' => some ('\x0c', 1)
      | 'r' => some ('\r', 1)
      | 'e' => some ('\x1b', 1)
      | ' ' => some (' ', 1)
      | '"' => some ('"', 1)
      | '/' => some ('/', 1)
      | '\\' => some ('\\', 1)
      | 'N' => some ('\u0085', 1)
      | '_' => some ('\u00a0', 1)
      | 'L' => some ('\u2028', 1)
      | 'P' => some ('\u2029', 1)
      | 'x' => coded 2 rest
      | 'u' => coded 4 rest
      | 'U' => coded 8 rest
      | _ => none

inductive RunEnd where
  | space
  | quote
  | escapedBreak

def quotedRun (single : Bool) : Nat → Cursor → Option (List Char × RunEnd × Cursor)
  | 0, _ => none
  | fuel + 1, c =>
      let keep (x : Char) (n : Nat) : Option (List Char × RunEnd × Cursor) :=
        (quotedRun single fuel (c.advance n)).map fun (run, e) => (x :: run, e)
      match c.text with
      | [] => some ([], .space, c)
      | x :: rest =>
          if isBlank x || isBreak x then some ([], .space, c)
          else if single then
            if x != Char.ofNat 39 then keep x 1
            else if rest.head? == some x then keep x 2
            else some ([], .quote, c.advance 1)
          else if x == '"' then some ([], .quote, c.advance 1)
          else if x == '\\' then
            if rest.head?.any isBreak then some ([], .escapedBreak, (c.advance 1).skipBreak)
            else (escape? rest).bind fun (y, n) => keep y (n + 1)
          else keep x 1

def quotedFrom (single : Bool) : Nat → List Char → Cursor → Option (List Char × Cursor)
  | 0, _, _ => none
  | fuel + 1, done, c => do
      if c.atDocumentIndicator || c.text.isEmpty then none
      let (run, ended, c) ← quotedRun single (c.bound + 1) c
      let done := done ++ run
      match ended with
      | .quote => return (done, c)
      | .space =>
          let (g, c) ← gap 0 (c.bound + 1) (.blanks []) c
          quotedFrom single fuel (done ++ g.fold) c
      | .escapedBreak =>
          let (g, c) ← gap 0 (c.bound + 1) (.breaks [] []) c
          quotedFrom single fuel (done ++ g.fold) c

def quoted (single : Bool) (c : Cursor) : Option (List Char × Cursor) :=
  quotedFrom single (c.bound + 1) [] (c.advance 1)

/-- How the line breaks at the end of a block scalar are kept. -/
inductive Chomping where
  | strip
  | clip
  | keep

/-- Indentation and line breaks before a line of a block scalar; the deepest column of a blank line
is kept for a scalar whose indentation is not yet known (`indent = 0`). A tab in the place of
indentation is refused. -/
def blockBreaks (indent : Nat) :
    Nat → Nat → List Char → Cursor → Option (Nat × List Char × Cursor)
  | 0, _, _, _ => none
  | fuel + 1, deepest, breaks, c =>
      let spaces := (c.text.takeWhile (· == ' ')).length
      let c := c.advance (if indent = 0 then spaces else min spaces (indent - c.column))
      let deepest := max deepest c.column
      if (indent = 0 || c.column < indent) && c.nextIs '\t' then none
      else if c.satisfies isBreak then
        let (b, next) := c.lineBreak
        blockBreaks indent fuel deepest (breaks ++ b) next
      else some (deepest, breaks, c)

def blockLines (literal : Bool) (indent : Nat) :
    Nat → List Char → List Char → Bool → List Char → Cursor →
      Option (List Char × List Char × List Char × Cursor)
  | 0, _, _, _, _, _ => none
  | fuel + 1, done, first, firstBlank, more, c =>
      if c.column = indent ∧ c.text ≠ [] then do
        let blank := c.satisfies isBlank
        -- Only the break between lines that both start with other characters is folded.
        let joined :=
          if !literal && first == ['\n'] && !firstBlank && !blank then
            if more.isEmpty then [' '] else []
          else first
        let (line, c) := c.takeWhile fun x => !isBreak x
        let (b, c) := c.lineBreak
        let (_, more', c) ← blockBreaks indent (c.bound + 1) 0 [] c
        blockLines literal indent fuel (done ++ (joined ++ more ++ line)) b blank more' c
      else some (done, first, more, c)

/-- The indicators after `|` or `>`: chomping and an indentation of one to nine, in any order. -/
def blockHeader (c : Cursor) : Option (Chomping × Nat × Cursor) :=
  let chomping? (c : Cursor) : Option Chomping :=
    if c.nextIs '+' then some .keep else if c.nextIs '-' then some .strip else none
  let digit? (c : Cursor) : Option Nat :=
    match c.peek? with
    | some x => if x.isDigit then some (x.toNat - '0'.toNat) else none
    | none => none
  match chomping? c with
  | some chomping =>
      let c := c.advance 1
      match digit? c with
      | some 0 => none
      | some n => some (chomping, n, c.advance 1)
      | none => some (chomping, 0, c)
  | none =>
      match digit? c with
      | some 0 => none
      | some n =>
          let c := c.advance 1
          match chomping? c with
          | some chomping => some (chomping, n, c.advance 1)
          | none => some (.clip, n, c)
      | none => some (.clip, 0, c)

/-- A block scalar inside a block of the given indentation (`-1` at the top), its indicator
included in the text read. -/
def block (literal : Bool) (parent : Int) (c : Cursor) : Option (List Char × Cursor) := do
  let (chomping, increment, c) ← blockHeader (c.advance 1)
  let c := c.skipBlanks
  let c := if c.nextIs '#' then c.skipLine else c
  if !c.breakOrEnd then none
  let c := c.skipBreak
  let fuel := c.bound + 1
  let given : Nat := if increment = 0 then 0 else (max parent 0).toNat + increment
  let (deepest, more, c) ← blockBreaks given fuel 0 [] c
  -- Without an indicator the first lines tell the indentation, which is inside the block.
  let indent := if given = 0 then max (max deepest (parent + 1).toNat) 1 else given
  let (done, first, more, c) ← blockLines literal indent fuel [] [] false more c
  match chomping with
  | .strip => return (done, c)
  | .clip => return (done ++ first, c)
  | .keep => return (done ++ first ++ more, c)

end ResourceGraph.Yaml.Scalar
