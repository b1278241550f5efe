import ResourceGraph.Yaml.Token
import ResourceGraph.Yaml.Token.Scalar

namespace ResourceGraph.Yaml.Tag

def isTagChar (verbatim : Bool) (c : Char) : Bool :=
  isWord c || c ∈ [';', '/', '?', ':', '@', '&', '=', '+', '$', '.', '%', '!', '~', '*',
    Char.ofNat 39, '(', ')'] || (verbatim && c ∈ [',', '[', ']'])

def octet? : List Char → Option (Nat × List Char)
  | '%' :: a :: b :: rest => (Scalar.hex? 2 0 [a, b]).map fun v => (v, rest)
  | _ => none

def trailing? : Nat → Nat → List Char → Option (Nat × List Char)
  | 0, v, text => some (v, text)
  | n + 1, v, text => do
      let (o, rest) ← octet? text
      if o / 64 ≠ 2 then none
      trailing? n (v * 64 + o % 64) rest

def charOf? (least v : Nat) : Option Char :=
  if least ≤ v ∧ v.isValidChar then some (Char.ofNat v) else none

/-- What the escaped octets of one sequence spell: a first octet says how many follow it. Octets
that are not the UTF-8 form of a character spell none. -/
def escaped? (text : List Char) : Option (Option Char × List Char) := do
  let (o, rest) ← octet? text
  let (n, least, v) ←
    if o < 0x80 then some (0, 0, o)
    else if o / 32 = 6 then some (1, 0x80, o % 32)
    else if o / 16 = 14 then some (2, 0x800, o % 16)
    else if o / 8 = 30 then some (3, 0x10000, o % 8)
    else none
  let (v, rest) ← trailing? n v rest
  return (charOf? least v, rest)

def uriChars (verbatim : Bool) : Nat → List Char → Option (Spelling × List Char)
  | 0, text => some ([], text)
  | fuel + 1, text =>
      match text with
      | [] => some ([], [])
      | x :: rest =>
          if !isTagChar verbatim x then some ([], text)
          else if x == '%' then do
            let (c, rest) ← escaped? text
            let (cs, rest) ← uriChars verbatim fuel rest
            return (c :: cs, rest)
          else do
            let (cs, rest) ← uriChars verbatim fuel rest
            return (some x :: cs, rest)

def uri (verbatim : Bool) (c : Cursor) : Option (Spelling × Cursor) := do
  let (cs, rest) ← uriChars verbatim (c.bound + 1) c.text
  return (cs, c.advance (c.text.length - rest.length))

/-- A handle: `!`, then word characters, then perhaps another `!`. -/
def handle (c : Cursor) : Option (List Char × Cursor) :=
  if !c.nextIs '!' then none
  else
    let (word, c) := (c.advance 1).takeWhile isWord
    if c.nextIs '!' then some ('!' :: word ++ ['!'], c.advance 1) else some ('!' :: word, c)

def isClosedHandle (h : List Char) : Bool := 2 ≤ h.length && h.getLast? == some '!'

/-- A tag as its handle and suffix: `!<uri>` has an empty handle, `!x` the handle `!`, `!e!x` the
handle `!e!`, and a lone `!` is a suffix. -/
def read (flow : Bool) (c : Cursor) : Option (Token × Cursor) := do
  let (token, c) ←
    if c.text[1]? == some '<' then do
      let (suffix, c) ← uri true (c.advance 2)
      if suffix.isEmpty || !c.nextIs '>' then none
      pure (Token.tag "" suffix, c.advance 1)
    else do
      let (h, c) ← handle c
      let (suffix, c) ← uri false c
      if isClosedHandle h then
        if suffix.isEmpty then none
        pure (Token.tag (String.ofList h) suffix, c)
      else
        let suffix := (h.drop 1).map some ++ suffix
        pure (if suffix.isEmpty then .tag "" [some '!'] else .tag "!" suffix, c)
  if c.blankOrEndAt 0 || (flow && c.nextIs ',') then some (token, c) else none

def versionNumber (c : Cursor) : Option (Nat × Cursor) :=
  let (digits, c) := c.takeWhile Char.isDigit
  if digits.isEmpty || 9 < digits.length then none
  else some (digits.foldl (fun n d => n * 10 + (d.toNat - '0'.toNat)) 0, c)

def directive (c : Cursor) : Option (Token × Cursor) := do
  let (name, c) := (c.advance 1).takeWhile isWord
  if name.isEmpty || !c.blankOrEndAt 0 then none
  let c := c.skipBlanks
  let (token, c) ←
    if String.ofList name == "YAML" then do
      let (major, c) ← versionNumber c
      if !c.nextIs '.' then none
      let (minor, c) ← versionNumber (c.advance 1)
      pure (Token.versionDirective major minor, c)
    else if String.ofList name == "TAG" then do
      let (h, c) ← handle c
      if !isClosedHandle h && h ≠ ['!'] then none
      if !c.satisfies isBlank then none
      let (expansion, c) ← uri true c.skipBlanks
      if expansion.isEmpty || !c.blankOrEndAt 0 then none
      pure (Token.tagDirective (String.ofList h) expansion, c)
    else none
  let c := c.skipBlanks
  let c := if c.nextIs '#' then c.skipLine else c
  if !c.breakOrEnd then none
  return (token, c.skipBreak)

end ResourceGraph.Yaml.Tag
