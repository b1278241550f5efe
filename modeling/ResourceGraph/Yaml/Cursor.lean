/-!
A place in a YAML text: what follows it, and where it stands. Line breaks are CR LF, CR, LF, NEL, LS
and PS; a break of one of the first four kinds is read as a line feed.
-/

namespace ResourceGraph.Yaml

def isBreak (c : Char) : Bool :=
  c == '\n' || c == '\r' || c == '\u0085' || c == '\u2028' || c == '\u2029'

def isBlank (c : Char) : Bool := c == ' ' || c == '\t'

/-- Letters, digits, `_` and `-`: the characters of anchors and tag handles. -/
def isWord (c : Char) : Bool := c.isAlphanum || c == '_' || c == '-'

/-- Characters that a text may contain: tab, line breaks and the printable planes. -/
def isAllowed (c : Char) : Bool :=
  let n := c.toNat
  n == 0x09 || n == 0x0A || n == 0x0D || (0x20 ≤ n && n ≤ 0x7E) || n == 0x85 ||
    (0xA0 ≤ n && n ≤ 0xD7FF) || (0xE000 ≤ n && n ≤ 0xFFFD) || 0x10000 ≤ n

def byteOrderMark : Char := '\ufeff'

def width (cs : List Char) : Nat := cs.foldl (fun n c => n + c.utf8Size) 0

/-- Places are counted in bytes from the start of the text, and in characters within a line. -/
structure Cursor where
  /-- the characters that follow -/
  text : List Char
  /-- no more characters than this follow -/
  bound : Nat
  length_le : text.length ≤ bound
  index : Nat
  line : Nat
  column : Nat

namespace Cursor

def start (text : List Char) : Cursor := ⟨text, text.length, Nat.le_refl _, 0, 0, 0⟩

def peek? (c : Cursor) : Option Char := c.text.head?

def nextIs (c : Cursor) (x : Char) : Bool := c.text.head? == some x

def satisfies (c : Cursor) (p : Char → Bool) : Bool := c.text.head?.any p

def blankOrEndAt (c : Cursor) (k : Nat) : Bool :=
  match c.text[k]? with
  | none => true
  | some x => isBlank x || isBreak x

def breakOrEnd (c : Cursor) : Bool :=
  match c.text with
  | [] => true
  | x :: _ => isBreak x

def drop (c : Cursor) (n : Nat) : Cursor :=
  { c with
    text := c.text.drop n
    length_le := Nat.le_trans (c.text.length_drop ▸ Nat.sub_le _ _) c.length_le
    index := c.index + width (c.text.take n) }

def advance (c : Cursor) (n : Nat) : Cursor := { c.drop n with column := c.column + n }

/-- Move over the `n` characters of a line break. -/
def newLine (c : Cursor) (n : Nat) : Cursor := { c.drop n with line := c.line + 1, column := 0 }

def takeWhile (c : Cursor) (p : Char → Bool) : List Char × Cursor :=
  let taken := c.text.takeWhile p
  (taken, c.advance taken.length)

def skipWhile (c : Cursor) (p : Char → Bool) : Cursor := (c.takeWhile p).2

def skipBlanks (c : Cursor) : Cursor := c.skipWhile isBlank

def skipLine (c : Cursor) : Cursor := c.skipWhile fun x => !isBreak x

def lineBreak (c : Cursor) : List Char × Cursor :=
  match c.text with
  | '\r' :: '\n' :: _ => (['\n'], c.newLine 2)
  | x :: _ =>
      if x == '\r' || x == '\n' || x == '\u0085' then (['\n'], c.newLine 1)
      else if isBreak x then ([x], c.newLine 1)
      else ([], c)
  | [] => ([], c)

def skipBreak (c : Cursor) : Cursor := c.lineBreak.2

/-- A document indicator, `---` or `...`, stands here at the start of a line. -/
def atIndicator (c : Cursor) (x : Char) : Bool :=
  c.column == 0 && c.text.take 3 == [x, x, x] && c.blankOrEndAt 3

def atDocumentIndicator (c : Cursor) : Bool := c.atIndicator '-' || c.atIndicator '.'

end Cursor

end ResourceGraph.Yaml
