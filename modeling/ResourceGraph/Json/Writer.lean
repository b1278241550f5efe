import ResourceGraph.Json.Value
import ResourceGraph.Number.Shortest

namespace ResourceGraph

/-- Exponents that are not negative carry a plus sign. -/
def Json.numberLayout : Double.Layout := ⟨"+"⟩

def Number.json : Number → String
  | .int n => toString n
  | .float d => d.text Json.numberLayout

namespace Json.Writer

def hexDigit (n : Nat) : Char := (Nat.toDigits 16 n).headD '0'

def escape (c : Char) : List Char :=
  if c = '"' then ['\\', '"']
  else if c = '\\' then ['\\', '\\']
  else if c = '\x08' then ['\\', 'b']
  else if c = '\x0c' then ['\\', 'f']
  else if c = '\n' then ['\\', 'n']
  else if c = '\r' then ['\\', 'r']
  else if c = '\t' then ['\\', 't']
  else if c.toNat < 0x20 then
    ['\\', 'u', '0', '0', hexDigit (c.toNat / 16), hexDigit (c.toNat % 16)]
  else [c]

def quoted (s : String) : String :=
  String.ofList ('"' :: s.toList.flatMap escape ++ ['"'])

end Json.Writer

namespace Json

open Writer

mutual

def text : Json → String
  | .null => "null"
  | .bool true => "true"
  | .bool false => "false"
  | .number n => n.json
  | .string s => quoted s
  | .array items => "[" ++ ",".intercalate (itemTexts items) ++ "]"
  | .object members => "\x7b" ++ ",".intercalate (memberTexts members) ++ "\x7d"

def itemTexts : List Json → List String
  | [] => []
  | x :: rest => x.text :: itemTexts rest

def memberTexts : List (String × Json) → List String
  | [] => []
  | (k, x) :: rest => (quoted k ++ ":" ++ x.text) :: memberTexts rest

end

end Json

end ResourceGraph
