namespace ResourceGraph

abbrev Bytes := List UInt8

namespace Bytes

def ofText (s : String) : Bytes := s.toUTF8.toList

/-- The text that bytes encode, if they encode one. -/
def text? (bytes : Bytes) : Option String := String.fromUTF8? ⟨bytes.toArray⟩

/-- What a first byte announces: the number of further bytes, the bits that it contributes, and the
least and greatest second byte. -/
def announced? (b : Nat) : Option (Nat × Nat × Nat × Nat) :=
  if b < 0x80 then some (0, b, 0, 0)
  else if b < 0xC2 then none
  else if b < 0xE0 then some (1, b - 0xC0, 0x80, 0xBF)
  else if b = 0xE0 then some (2, 0, 0xA0, 0xBF)
  else if b = 0xED then some (2, 0xD, 0x80, 0x9F)
  else if b < 0xF0 then some (2, b - 0xE0, 0x80, 0xBF)
  else if b = 0xF0 then some (3, 0, 0x90, 0xBF)
  else if b < 0xF4 then some (3, b - 0xF0, 0x80, 0xBF)
  else if b = 0xF4 then some (3, 4, 0x80, 0x8F)
  else none

def further : Nat → Nat → Nat → Nat → Bytes → Option Nat × Bytes
  | 0, v, _, _, rest => (some v, rest)
  | _ + 1, _, _, _, [] => (none, [])
  | n + 1, v, low, high, b :: rest =>
      if low ≤ b.toNat ∧ b.toNat ≤ high then further n (v * 64 + b.toNat % 64) 0x80 0xBF rest
      else (none, b :: rest)

/-- The characters of bytes, a replacement character for each part that encodes none. -/
def lossyChars : Nat → Bytes → List Char
  | 0, _ => []
  | _ + 1, [] => []
  | fuel + 1, b :: rest =>
      match announced? b.toNat with
      | none => '\ufffd' :: lossyChars fuel rest
      | some (n, v, low, high) =>
          match further n v low high rest with
          | (some c, rest) => Char.ofNat c :: lossyChars fuel rest
          | (none, rest) => '\ufffd' :: lossyChars fuel rest

def lossyText (bytes : Bytes) : String := String.ofList (lossyChars (bytes.length + 1) bytes)

end Bytes

end ResourceGraph
