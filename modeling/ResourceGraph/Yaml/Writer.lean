import ResourceGraph.Yaml.Value

/-!
YAML text of values in block style, two columns for each level. A sequence that is the value of a
key is not indented. A text is written plain where that reads back as the same text, over several
lines when it has line feeds, and otherwise in quotes. Not all values can be written; those of JSON
can.
-/

namespace ResourceGraph.Yaml.Writer

def isPrintable (c : Char) : Bool :=
  let n := c.toNat
  n == 0x0A || (0x20 ≤ n && n ≤ 0x7E) || (0xA0 ≤ n && n ≤ 0xD7FF) ||
    (0xE000 ≤ n && n ≤ 0xFFFD && n != 0xFEFF) || 0x10000 ≤ n

structure Traits where
  /-- an indicator of block style stands where it would be read as one -/
  indicator : Bool
  special : Bool
  hasBreak : Bool
  startsBlank : Bool
  endsSpace : Bool
  endsBreak : Bool
  /-- a break directly before a space, and a space directly before a break -/
  breakSpace : Bool
  spaceBreak : Bool

def blankOrEnd : List Char → Bool
  | [] => true
  | c :: _ => isBlank c || isBreak c

def adjacent (p q : Char → Bool) : List Char → Bool
  | a :: b :: rest => (p a && q b) || adjacent p q (b :: rest)
  | _ => false

/-- Indicators after the first character: a colon before white space, and `#` after it. -/
def innerIndicator : Char → List Char → Bool
  | _, [] => false
  | before, c :: rest =>
      (c == ':' && blankOrEnd rest) || (c == '#' && (isBlank before || isBreak before)) ||
        innerIndicator c rest

def leadingIndicator : List Char → Bool
  | [] => false
  | c :: rest =>
      c ∈ ['#', ',', '[', ']', '\x7b', '\x7d', '&', '*', '!', '|', '>', Char.ofNat 39, '"', '%',
        '@', Char.ofNat 96] || (c ∈ ['?', ':', '-'] && blankOrEnd rest) || innerIndicator c rest

def isSpace (c : Char) : Bool := c == ' '

def traits (cs : List Char) : Traits where
  indicator := cs.take 3 == ['-', '-', '-'] || cs.take 3 == ['.', '.', '.'] || leadingIndicator cs
  special := cs.any fun c => !isPrintable c
  hasBreak := cs.any isBreak
  startsBlank := cs.head?.any fun c => isSpace c || isBreak c
  endsSpace := cs.getLast?.any isSpace
  endsBreak := cs.getLast?.any isBreak
  breakSpace := adjacent isBreak isSpace cs
  spaceBreak := adjacent isSpace isBreak cs

def Traits.plainAllowed (t : Traits) : Bool :=
  !(t.indicator || t.special || t.hasBreak || t.startsBlank || t.endsSpace)

def Traits.singleAllowed (t : Traits) : Bool := !(t.breakSpace || t.spaceBreak || t.special)

def Traits.literalAllowed (t : Traits) : Bool := !(t.endsSpace || t.spaceBreak || t.special)

inductive Style where
  | plain
  | single
  | double
  | literal
  deriving DecidableEq, Repr

/-- The style of a text: literal when it has line feeds, quoted when it would not read back as a
text, and plain when nothing in it forbids that. -/
def styleOf (s : String) : Style :=
  let cs := s.toList
  let t := traits cs
  let quoted : Style := if t.singleAllowed then .single else .double
  if cs.contains '\n' then if t.literalAllowed then .literal else .double
  else if Plain.resolve s != .text || Plain.hasLeadingZero cs then quoted
  else if t.plainAllowed then .plain
  else quoted

def upperHex (width n : Nat) : List Char :=
  let digits := (Nat.toDigits 16 n).map Char.toUpper
  List.replicate (width - digits.length) '0' ++ digits

def escape (c : Char) : List Char :=
  let n := c.toNat
  if c == '"' then ['\\', '"']
  else if c == '\\' then ['\\', '\\']
  else if isPrintable c && !isBreak c then [c]
  else if n = 0 then ['\\', '0']
  else if n = 0x07 then ['\\', 'a']
  else if n = 0x08 then ['\\', 'b']
  else if n = 0x09 then ['\\', 't']
  else if n = 0x0A then ['\\', 'n']
  else if n = 0x0B then ['\\', 'v']
  else if n = 0x0C then ['\\', 'f']
  else if n = 0x0D then ['\\', 'r']
  else if n = 0x1B then ['\\', 'e']
  else if n = 0x85 then ['\\', 'N']
  else if n = 0x2028 then ['\\', 'L']
  else if n = 0x2029 then ['\\', 'P']
  else if n ≤ 0xFF then '\\' :: 'x' :: upperHex 2 n
  else if n ≤ 0xFFFF then '\\' :: 'u' :: upperHex 4 n
  else '\\' :: 'U' :: upperHex 8 n

def spaces (n : Nat) : List Char := List.replicate n ' '

def literalLines (indent : Nat) : Bool → List Char → List Char
  | _, [] => []
  | atStart, c :: rest =>
      if isBreak c then c :: literalLines indent true rest
      else if atStart then spaces indent ++ c :: literalLines indent false rest
      else c :: literalLines indent false rest

/-- The indicators of a literal text: its indentation when it starts blank, and how its last line
breaks are kept. -/
def literalHeader (cs : List Char) : List Char :=
  let indentation := if cs.head?.any fun c => isSpace c || isBreak c then ['2'] else []
  let chomping := match cs.reverse with
    | [] => ['-']
    | [c] => if isBreak c then ['+'] else ['-']
    | c :: d :: _ => if !isBreak c then ['-'] else if isBreak d then ['+'] else []
  '|' :: indentation ++ chomping

def singleQuote : Char := Char.ofNat 39

/-- The inside of single quotes: a quote is written twice, and what follows line breaks is
indented. -/
def singleQuoted (indent : Nat) : Bool → List Char → List Char
  | afterBreak, [] => if afterBreak then spaces indent else []
  | afterBreak, c :: rest =>
      if isBreak c then c :: singleQuoted indent true rest
      else
        (if afterBreak then spaces indent else []) ++
          (if c == singleQuote then [c, c] else [c]) ++ singleQuoted indent false rest

def textChars (indent : Nat) (s : String) : List Char :=
  let cs := s.toList
  match styleOf s with
  | .plain => cs
  | .single =>
      singleQuote :: singleQuoted (indent + 2) false cs ++ [singleQuote]
  | .double => '"' :: cs.flatMap escape ++ ['"']
  | .literal => literalHeader cs ++ '\n' :: literalLines (indent + 2) true cs

/-- Exponents that are not negative have no sign. -/
def numberLayout : Double.Layout := ⟨""⟩

def numberText : Number → String
  | .int n => toString n
  | .float d => d.text numberLayout

def infinityText (negative : Bool) : String := if negative then "-.inf" else ".inf"

def notANumberText : String := ".nan"

def leaf? (indent : Nat) : Value → Option (List Char)
  | .null => some "null".toList
  | .bool b => some (if b then "true" else "false").toList
  | .number n => some (numberText n).toList
  | .infinity negative => some (infinityText negative).toList
  | .notANumber => some notANumberText.toList
  | .string s => some (textChars indent s)
  | .sequence [] => some ['[', ']']
  | .mapping [] => some ['\x7b', '\x7d']
  | _ => none

def isTagText (c : Char) : Bool :=
  isWord c || c ∈ [';', '/', '?', ':', '@', '&', '=', '+', '$', ',', '.', '~', '*', singleQuote,
    '(', ')', '[', ']']

/-- The characters of a tag; others are written as escaped octets. -/
def tagText (cs : List Char) : List Char :=
  cs.flatMap fun c =>
    if isTagText c then [c]
    else (String.singleton c).toUTF8.toList.flatMap fun b => '%' :: upperHex 2 b.toNat

def tagSuffix (name : String) : List Char :=
  match name.toList with
  | '!' :: rest => rest
  | cs => cs

/-- A local tag. A lone `!` is written as an identifier. -/
def tagChars (name : String) : List Char :=
  match tagSuffix name with
  | [] => '!' :: '<' :: tagText ['!'] ++ ['>']
  | suffix => '!' :: tagText suffix

def hasInnerBreak : Value → Bool
  | .string s => s.toList.any isBreak
  | _ => false

/-- The length in bytes that decides whether a key stands on one line with its value. -/
def keyBytes : Value → Option Nat
  | .tagged name v => (plainBytes v).map fun n => n + width (tagSuffix name) + 1
  | v => plainBytes v
where
  plainBytes (v : Value) : Option Nat :=
    match v with
    | .string s => some s.utf8ByteSize
    | .sequence [] | .mapping [] => some 0
    | v => (leaf? 0 v).map List.length

/-- Keys of several lines, long keys and filled collections are marked by `?`. -/
def isSimpleKey (k : Value) : Bool :=
  !hasInnerBreak k.untagged && (keyBytes k).any (· ≤ 128)

def endsLine (text : List Char) : Bool := text.getLast?.any isBreak

/-- What begins the next line, given the text before it: nothing is needed after a line break. -/
def newLine (indent : Nat) (before : List Char) : List Char :=
  if endsLine before then spaces indent else '\n' :: spaces indent

def keyChars (indent : Nat) : Value → List Char
  | .tagged t v => tagChars t ++ ' ' :: (leaf? indent v).getD []
  | v => (leaf? indent v).getD []

mutual

/-- A value after an indicator of a collection with the given indentation. `afterKey` says that the
indicator is the colon of a mapping, `sameLine` that a collection may begin on this line. -/
def after (indent : Nat) (afterKey sameLine : Bool) : Value → List Char
  | .tagged t v => ' ' :: tagChars t ++ after indent afterKey false v
  | .sequence (x :: xs) =>
      let own := if afterKey && !sameLine then indent else indent + 2
      items own (if sameLine then [' '] else '\n' :: spaces own) (x :: xs)
  | .mapping (e :: es) =>
      let own := indent + 2
      entries own (if sameLine then [' '] else '\n' :: spaces own) (e :: es)
  | v => ' ' :: (leaf? indent v).getD []

def items (indent : Nat) (lead : List Char) : List Value → List Char
  | [] => []
  | x :: rest =>
      let item := lead ++ '-' :: after indent false true x
      item ++ items indent (newLine indent item) rest

def entries (indent : Nat) (lead : List Char) : List (Value × Value) → List Char
  | [] => []
  | e :: rest =>
      let text := lead ++ entry indent e
      text ++ entries indent (newLine indent text) rest

def entry (indent : Nat) : Value × Value → List Char
  | (k, v) =>
    if isSimpleKey k then keyChars indent k ++ ':' :: after indent true false v
    else
      let key := '?' :: after indent true true k
      key ++ newLine indent key ++ ':' :: after indent true true v

end

/-- A tag and a mapping of one entry begin alike. -/
def isSingle : Value → Bool
  | .tagged .. | .mapping [_] => true
  | _ => false

/-- The key of a single entry is none that begins like a mapping of a single entry. -/
def hasClearKey : List (Value × Value) → Bool
  | [(k, _)] => !isSingle k
  | _ => true

mutual

/-- A value that can be written. Under a tag every mapping has a clear beginning. -/
def canWrite (underTag : Bool) : Value → Bool
  | .tagged _ v => canWrite true v
  | .sequence xs => canWriteItems xs
  | .mapping es => (underTag || hasClearKey es) && canWriteEntries es
  | _ => true

def canWriteItems : List Value → Bool
  | [] => true
  | x :: rest => canWrite false x && canWriteItems rest

def canWriteEntries : List (Value × Value) → Bool
  | [] => true
  | (k, v) :: rest => canWrite false k && canWrite false v && canWriteEntries rest

end

def finish (text : List Char) : List Char := if endsLine text then text else text ++ ['\n']

def document (es : List (Value × Value)) : String :=
  if es.isEmpty then "\x7b\x7d\n" else String.ofList (finish (entries 0 [] es))

theorem hasClearKey_ofMembers (members : List (String × Json)) :
    hasClearKey (Value.ofMembers members) = true := by
  match members with
  | [] | [_] | _ :: _ :: _ => rfl

mutual

theorem canWrite_ofJson (underTag : Bool) (j : Json) :
    canWrite underTag (Value.ofJson j) = true := by
  cases j with
  | array items => exact canWriteItems_ofItems items
  | object members =>
      simp [Value.ofJson, canWrite, hasClearKey_ofMembers, canWriteEntries_ofMembers members]
  | _ => rfl

theorem canWriteItems_ofItems (items : List Json) :
    canWriteItems (Value.ofItems items) = true := by
  cases items with
  | nil => rfl
  | cons x rest =>
      simp [Value.ofItems, canWriteItems, canWrite_ofJson false x, canWriteItems_ofItems rest]

theorem canWriteEntries_ofMembers (members : List (String × Json)) :
    canWriteEntries (Value.ofMembers members) = true := by
  cases members with
  | nil => rfl
  | cons m rest =>
      simp [Value.ofMembers, canWriteEntries, canWrite, canWrite_ofJson false m.2,
        canWriteEntries_ofMembers rest]

end

end ResourceGraph.Yaml.Writer
