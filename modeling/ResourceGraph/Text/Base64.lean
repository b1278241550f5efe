import ResourceGraph.Text.Utf8

namespace ResourceGraph.Base64

def digit (n : Nat) : Char :=
  if n < 26 then Char.ofNat ('A'.toNat + n)
  else if n < 52 then Char.ofNat ('a'.toNat + (n - 26))
  else if n < 62 then Char.ofNat ('0'.toNat + (n - 52))
  else if n = 62 then '+'
  else '/'

def value? (c : Char) : Option Nat :=
  if 'A' ≤ c ∧ c ≤ 'Z' then some (c.toNat - 'A'.toNat)
  else if 'a' ≤ c ∧ c ≤ 'z' then some (c.toNat - 'a'.toNat + 26)
  else if '0' ≤ c ∧ c ≤ '9' then some (c.toNat - '0'.toNat + 52)
  else if c = '+' then some 62
  else if c = '/' then some 63
  else none

def encode : Bytes → List Char
  | [] => []
  | [a] =>
      let n := a.toNat
      [digit (n / 4), digit (n % 4 * 16), '=', '=']
  | [a, b] =>
      let n := a.toNat
      let m := b.toNat
      [digit (n / 4), digit (n % 4 * 16 + m / 16), digit (m % 16 * 4), '=']
  | a :: b :: c :: rest =>
      let n := a.toNat
      let m := b.toNat
      let k := c.toNat
      digit (n / 4) :: digit (n % 4 * 16 + m / 16) :: digit (m % 16 * 4 + k / 64) ::
        digit (k % 64) :: encode rest

/-- The last group of four, which may be padded. -/
def decodeLast? (a b c d : Char) : Option Bytes := do
  let va ← value? a
  let vb ← value? b
  if c = '=' then
    if d = '=' ∧ vb % 16 = 0 then some [UInt8.ofNat (va * 4 + vb / 16)] else none
  else
    let vc ← value? c
    if d = '=' then
      if vc % 4 = 0 then
        some [UInt8.ofNat (va * 4 + vb / 16), UInt8.ofNat (vb % 16 * 16 + vc / 4)]
      else none
    else
      let vd ← value? d
      some [UInt8.ofNat (va * 4 + vb / 16), UInt8.ofNat (vb % 16 * 16 + vc / 4),
        UInt8.ofNat (vc % 4 * 64 + vd)]

def decode? : List Char → Option Bytes
  | [] => some []
  | [a, b, c, d] => decodeLast? a b c d
  | a :: b :: c :: d :: rest =>
      match value? a, value? b, value? c, value? d with
      | some va, some vb, some vc, some vd =>
          (decode? rest).map fun more =>
            UInt8.ofNat (va * 4 + vb / 16) :: UInt8.ofNat (vb % 16 * 16 + vc / 4) ::
              UInt8.ofNat (vc % 4 * 64 + vd) :: more
      | _, _, _, _ => none
  | _ => none

theorem value?_digit {n : Nat} (h : n < 64) : value? (digit n) = some n := by
  have : ∀ n : Fin 64, value? (digit n) = some n.val := by decide
  exact this ⟨n, h⟩

theorem digit_ne_pad {n : Nat} (h : n < 64) : digit n ≠ '=' := by
  have : ∀ n : Fin 64, digit n ≠ '=' := by decide
  exact this ⟨n, h⟩

theorem ofNat_eq {n : Nat} {a : UInt8} (h : n = a.toNat) : UInt8.ofNat n = a := by
  rw [h, UInt8.ofNat_toNat]

theorem decode?_encode (bytes : Bytes) : decode? (encode bytes) = some bytes := by
  fun_induction encode bytes with
  | case1 => rfl
  | case2 a n =>
    have := a.toNat_lt
    have h : UInt8.ofNat (n / 4 * 4 + n % 4) = a := ofNat_eq (by omega)
    simp [decode?, decodeLast?, value?_digit (n := n / 4) (by omega),
      value?_digit (n := n % 4 * 16) (by omega), h, -UInt8.ofNat_add]
  | case3 a b n m =>
    have := a.toNat_lt
    have := b.toNat_lt
    have h : UInt8.ofNat (n / 4 * 4 + (n % 4 * 16 + m / 16) / 16) = a := ofNat_eq (by omega)
    have h' : UInt8.ofNat ((n % 4 * 16 + m / 16) % 16 * 16 + m % 16 * 4 / 4) = b :=
      ofNat_eq (by omega)
    simp only [decode?, decodeLast?, value?_digit (n := n / 4) (by omega),
      value?_digit (n := n % 4 * 16 + m / 16) (by omega), value?_digit (n := m % 16 * 4) (by omega),
      if_neg (digit_ne_pad (n := m % 16 * 4) (by omega)), h, h', bind, Option.bind]
    rw [if_pos trivial, if_pos (by omega)]
  | case4 a b c rest n m k ih =>
    have := a.toNat_lt
    have := b.toNat_lt
    have := c.toNat_lt
    have h : UInt8.ofNat (n / 4 * 4 + (n % 4 * 16 + m / 16) / 16) = a := ofNat_eq (by omega)
    have h' : UInt8.ofNat ((n % 4 * 16 + m / 16) % 16 * 16 + (m % 16 * 4 + k / 64) / 4) = b :=
      ofNat_eq (by omega)
    have h'' : UInt8.ofNat ((m % 16 * 4 + k / 64) % 4 * 64 + k % 64) = c := ofNat_eq (by omega)
    cases hr : encode rest with
    | nil =>
      rw [hr] at ih
      have hrest : rest = [] := by simpa [decode?] using ih.symm
      subst hrest
      simp only [decode?, decodeLast?, value?_digit (n := n / 4) (by omega),
        value?_digit (n := n % 4 * 16 + m / 16) (by omega),
        value?_digit (n := m % 16 * 4 + k / 64) (by omega),
        value?_digit (n := k % 64) (by omega),
        if_neg (digit_ne_pad (n := m % 16 * 4 + k / 64) (by omega)),
        if_neg (digit_ne_pad (n := k % 64) (by omega)), h, h', h'', bind, Option.bind]
    | cons x xs =>
      rw [hr] at ih
      simp only [decode?, value?_digit (n := n / 4) (by omega),
        value?_digit (n := n % 4 * 16 + m / 16) (by omega),
        value?_digit (n := m % 16 * 4 + k / 64) (by omega),
        value?_digit (n := k % 64) (by omega), ih, h, h', h'', Option.map]

def encodeText (bytes : Bytes) : String := String.ofList (encode bytes)

def decodeText? (s : String) : Option Bytes := decode? s.toList

end ResourceGraph.Base64
