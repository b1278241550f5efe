import ResourceGraph.Json.Writer
import ResourceGraph.Proofs.Number.Decimal
import ResourceGraph.Yaml.Plain

namespace ResourceGraph.Yaml.Plain

def isNumeric (c : Char) : Bool := isDigit c || c ∈ ['.', 'e', '+', '-']

theorem isNumeric_of_isDigit {c : Char} (h : isDigit c = true) : isNumeric c = true := by
  simp [isNumeric, h]

theorem isDigit_of_mem_toDigits {n : Nat} {c : Char} (h : c ∈ Nat.toDigits 10 n) :
    isDigit c = true := by
  have hdigit := Nat.isDigit_of_mem_toDigits (by decide) (by decide) h
  simpa [isDigit, Char.isDigit, Char.le_def] using hdigit

theorem ne_of_isDigit {c x : Char} (h : isDigit c = true) (hx : isDigit x = false) : c ≠ x := by
  rintro rfl
  rw [h] at hx
  exact nomatch hx

theorem digit?_of_isDigit {c : Char} (h : isDigit c = true) :
    digit? c = some (c.toNat - '0'.toNat) ∧ c.toNat - '0'.toNat < 10 := by
  simp only [isDigit, Bool.and_eq_true, decide_eq_true_eq] at h
  constructor
  · rw [digit?, if_pos h]
  · have hnine : c.toNat ≤ '9'.toNat := h.2
    have hnine' : '9'.toNat = 57 := rfl
    have hzero : '0'.toNat = 48 := rfl
    omega

theorem foldlM_digits {cs : List Char} (h : ∀ c ∈ cs, isDigit c = true) (init : Nat) :
    (cs.foldlM (fun n c => do
      let d ← digit? c
      if d < 10 then some (n * 10 + d) else none) init) = some (Nat.ofDigitChars 10 cs init) := by
  induction cs generalizing init with
  | nil => simp
  | cons c rest ih =>
      obtain ⟨hdigit, hlt⟩ := digit?_of_isDigit (h c List.mem_cons_self)
      rw [List.foldlM_cons, hdigit, Nat.ofDigitChars_cons, Nat.mul_comm 10 init]
      simp only [Option.bind_eq_bind, Option.bind_some, if_pos hlt]
      exact ih (fun x hx => h x (List.mem_cons_of_mem _ hx)) _

theorem natural?_of_digits {cs : List Char} (hne : cs ≠ []) (h : ∀ c ∈ cs, isDigit c = true) :
    natural? 10 cs = some (Nat.ofDigitChars 10 cs 0) := by
  rw [natural?, if_neg (by simpa using hne), foldlM_digits h]

theorem foldlM_eq_none {cs : List Char} {x : Char} (hx : x ∈ cs)
    (hdigit : ∀ d, digit? x = some d → ¬ d < 10) (init : Nat) :
    (cs.foldlM (fun n c => do
      let d ← digit? c
      if d < 10 then some (n * 10 + d) else none) init) = none := by
  induction cs generalizing init with
  | nil => exact nomatch hx
  | cons c rest ih =>
      rw [List.foldlM_cons]
      rcases List.mem_cons.mp hx with rfl | hx
      · cases hd : digit? x with
        | none => rfl
        | some d =>
            simp only [Option.bind_eq_bind, Option.bind_some, if_neg (hdigit d hd)]
            rfl
      · cases digit? c with
        | none => rfl
        | some d =>
            simp only [Option.bind_eq_bind, Option.bind_some]
            split
            · exact ih hx _
            · rfl

theorem natural?_eq_none {cs : List Char} {x : Char} (hx : x ∈ cs)
    (hdigit : ∀ d, digit? x = some d → ¬ d < 10) : natural? 10 cs = none := by
  rw [natural?]
  split
  · rfl
  · exact foldlM_eq_none hx hdigit 0

theorem based?_of_numeric {cs : List Char} (h : ∀ c ∈ cs, isNumeric c = true) :
    based? cs = none := by
  have hx : ∀ x, isNumeric x = false → x ∉ cs := by
    intro x hx hmem
    rw [h x hmem] at hx
    exact nomatch hx
  unfold based?
  split
  · exact absurd (by simp) (hx 'x' (by decide))
  · exact absurd (by simp) (hx 'o' (by decide))
  · exact absurd (by simp) (hx 'b' (by decide))
  · rfl

theorem exists_toDigits_eq_cons {n : Nat} (h : n ≠ 0) :
    ∃ c rest, Nat.toDigits 10 n = c :: rest ∧ isDigit c = true ∧ c ≠ '0' := by
  induction n using Nat.strongRecOn with
  | ind n ih =>
      rw [Nat.toDigits_eq_if (by decide)]
      by_cases hlt : n < 10
      · rw [if_pos hlt]
        have hcases : n = 1 ∨ n = 2 ∨ n = 3 ∨ n = 4 ∨ n = 5 ∨ n = 6 ∨ n = 7 ∨ n = 8 ∨ n = 9 := by
          omega
        refine ⟨n.digitChar, [], rfl, ?_⟩
        rcases hcases with rfl | rfl | rfl | rfl | rfl | rfl | rfl | rfl | rfl <;> decide
      · rw [if_neg hlt]
        obtain ⟨c, rest, heq, hc⟩ := ih (n / 10) (by omega) (by omega)
        exact ⟨c, rest ++ [(n % 10).digitChar], by rw [heq, List.cons_append], hc⟩

theorem hasLeadingZero_of_ne {c : Char} {rest : List Char} (hdigit : isDigit c = true)
    (hc : c ≠ '0') : hasLeadingZero (c :: rest) = false ∧
      hasLeadingZero ('-' :: c :: rest) = false := by
  have hplus := ne_of_isDigit hdigit (show isDigit '+' = false by decide)
  have hminus := ne_of_isDigit hdigit (show isDigit '-' = false by decide)
  constructor <;> simp [hasLeadingZero, hplus, hminus, hc]

theorem hasLeadingZero_toDigits (n : Nat) :
    hasLeadingZero (Nat.toDigits 10 n) = false ∧
      hasLeadingZero ('-' :: Nat.toDigits 10 n) = false := by
  by_cases h : n = 0
  · rw [h]
    decide
  · obtain ⟨c, rest, heq, hdigit, hc⟩ := exists_toDigits_eq_cons h
    rw [heq]
    exact hasLeadingZero_of_ne hdigit hc

theorem not_mem_of_numeric {s : String} (h : ∀ c ∈ s.toList, isNumeric c = true)
    {words : List String} (hwords : words.all (fun w => w.toList.any fun c => !isNumeric c)) :
    s ∉ words := by
  intro hmem
  obtain ⟨c, hc, hnot⟩ := List.any_eq_true.mp (List.all_eq_true.mp hwords s hmem)
  rw [h c hc] at hnot
  exact nomatch hnot

theorem resolve_of_numeric {s : String} (hne : s ≠ "") (h : ∀ c ∈ s.toList, isNumeric c = true) :
    resolve s = match integerOf? s with
      | some p => p
      | none => if hasLeadingZero s.toList then .text else (float? s).getD .text := by
  have hnull : isNull s = false :=
    decide_eq_false (not_mem_of_numeric h (by decide))
  have hbool : bool? s = none := by
    rw [bool?, if_neg (not_mem_of_numeric h (by decide)),
      if_neg (not_mem_of_numeric h (by decide))]
  have hempty : s.isEmpty = false := by simpa using hne
  rw [resolve, hnull, hbool, hempty]
  rfl

theorem float?_of_numeric {s : String} (h : ∀ c ∈ s.toList, isNumeric c = true) :
    float? s = (match s.toList with
      | '+' :: cs => decimal? false cs
      | '-' :: cs => decimal? true cs
      | cs => decimal? false cs).map .float := by
  rw [float?]
  refine (if_neg (not_mem_of_numeric h (by decide))).trans ?_
  refine (if_neg (not_mem_of_numeric h (by decide))).trans ?_
  exact if_neg (not_mem_of_numeric h (by decide))

section Integer

theorem integer?_cons {c : Char} {rest : List Char} (hdigit : isDigit c = true)
    (h : ∀ x ∈ c :: rest, isNumeric x = true) (hzero : hasLeadingZero (c :: rest) = false) :
    integer? (c :: rest) = (natural? 10 (c :: rest)).map Int.ofNat ∧
      (hasLeadingZero ('-' :: c :: rest) = false →
        integer? ('-' :: c :: rest) = (natural? 10 (c :: rest)).map fun n => -(n : Int)) := by
  have hplus := ne_of_isDigit hdigit (show isDigit '+' = false by decide)
  have hminus := ne_of_isDigit hdigit (show isDigit '-' = false by decide)
  constructor
  · simp [integer?, hplus, hminus, based?_of_numeric h, hzero]
  · intro hzero'
    simp [integer?, based?_of_numeric h, hzero']

theorem isNumeric_of_mem_toDigits {n : Nat} {c : Char} (h : c ∈ Nat.toDigits 10 n) :
    isNumeric c = true :=
  isNumeric_of_isDigit (isDigit_of_mem_toDigits h)

theorem exists_toDigits_cons (n : Nat) :
    ∃ c rest, Nat.toDigits 10 n = c :: rest ∧ isDigit c = true := by
  cases h : Nat.toDigits 10 n with
  | nil => exact absurd h Nat.toDigits_ne_nil
  | cons c rest =>
      exact ⟨c, rest, rfl, isDigit_of_mem_toDigits (h ▸ List.mem_cons_self)⟩

theorem integer?_toDigits (n : Nat) :
    integer? (Nat.toDigits 10 n) = some (n : Int) ∧
      integer? ('-' :: Nat.toDigits 10 n) = some (-(n : Int)) := by
  have hnatural : natural? 10 (Nat.toDigits 10 n) = some n := by
    rw [natural?_of_digits Nat.toDigits_ne_nil fun c hc => isDigit_of_mem_toDigits hc,
      Nat.ofDigitChars_ten_toDigits]
  obtain ⟨hzero, hzero'⟩ := hasLeadingZero_toDigits n
  have hnumeric : ∀ c ∈ Nat.toDigits 10 n, isNumeric c = true :=
    fun c hc => isNumeric_of_mem_toDigits hc
  obtain ⟨c, rest, heq, hdigit⟩ := exists_toDigits_cons n
  rw [heq] at hnatural hzero hzero' hnumeric ⊢
  obtain ⟨hpositive, hnegative⟩ := integer?_cons hdigit hnumeric hzero
  rw [hpositive, hnegative hzero', hnatural]
  exact ⟨rfl, rfl⟩

theorem toList_toString (n : Int) :
    (toString n).toList = Nat.toDigits 10 n.natAbs ∧ 0 ≤ n ∨
      (toString n).toList = '-' :: Nat.toDigits 10 n.natAbs ∧ n < 0 := by
  cases n with
  | ofNat m => exact .inl ⟨Nat.toList_repr, Int.natCast_nonneg m⟩
  | negSucc m =>
      refine .inr ⟨?_, Int.negSucc_lt_zero m⟩
      change ("-" ++ Nat.repr (m + 1)).toList = _
      rw [String.toList_append, Nat.toList_repr]
      rfl

theorem integer?_toString (n : Int) : integer? (toString n).toList = some n := by
  rcases toList_toString n with ⟨htext, hn⟩ | ⟨htext, hn⟩
  · rw [htext, (integer?_toDigits _).1, Int.natAbs_of_nonneg hn]
  · rw [htext, (integer?_toDigits _).2, Int.ofNat_natAbs_of_nonpos (Int.le_of_lt hn), Int.neg_neg]

theorem isNumeric_toString (n : Int) : ∀ c ∈ (toString n).toList, isNumeric c = true := by
  intro c hc
  rcases toList_toString n with ⟨htext, -⟩ | ⟨htext, -⟩
  · rw [htext] at hc
    exact isNumeric_of_mem_toDigits hc
  · rw [htext] at hc
    rcases List.mem_cons.mp hc with rfl | hc
    · decide
    · exact isNumeric_of_mem_toDigits hc

theorem resolve_toString {n : Int} (h : inWord n = true) : resolve (toString n) = .int n := by
  have hne : toString n ≠ "" := by
    intro hempty
    have hlist : (toString n).toList = [] := by rw [hempty]; rfl
    rcases toList_toString n with ⟨htext, -⟩ | ⟨htext, -⟩ <;> rw [htext] at hlist
    · exact Nat.toDigits_ne_nil hlist
    · exact nomatch hlist
  rw [resolve_of_numeric hne (isNumeric_toString n), integerOf?, integer?_toString]
  simp only [h, if_true]

end Integer

section Decimal

theorem takeWhile_digits {digits : List Char} (rest : List Char) (h : ∀ c ∈ digits, isDigit c = true)
    (hrest : ∀ c ∈ rest.head?, isDigit c = false) :
    (digits ++ rest).takeWhile isDigit = digits ∧ (digits ++ rest).dropWhile isDigit = rest := by
  induction digits with
  | nil =>
      cases rest with
      | nil => exact ⟨rfl, rfl⟩
      | cons x rest =>
          have hx : isDigit x = false := hrest x rfl
          simp [hx]
  | cons c digits ih =>
      obtain ⟨htake, hdrop⟩ := ih fun x hx => h x (List.mem_cons_of_mem _ hx)
      have hc := h c List.mem_cons_self
      simp [hc, htake, hdrop]

theorem decimal?_of_point (negative : Bool) (whole fraction tail : List Char) {e : Int}
    (hwhole : ∀ c ∈ whole, isDigit c = true) (hfraction : ∀ c ∈ fraction, isDigit c = true)
    (hne : whole ++ fraction ≠ []) (htail : ∀ c ∈ tail.head?, isDigit c = false)
    (he : exponent? tail = some e) :
    decimal? negative (whole ++ '.' :: (fraction ++ tail)) =
      Double.ofDecimal? negative (Nat.ofDigitChars 10 (whole ++ fraction) 0)
        (e - fraction.length) := by
  obtain ⟨htake, hdrop⟩ := takeWhile_digits ('.' :: (fraction ++ tail)) hwhole
    (by simp [isDigit])
  obtain ⟨htake', hdrop'⟩ := takeWhile_digits tail hfraction htail
  have hdigits : ∀ c ∈ whole ++ fraction, isDigit c = true := by
    intro c hc
    exact (List.mem_append.mp hc).elim (hwhole c) (hfraction c)
  unfold decimal?
  simp only [htake, hdrop, htake', hdrop', natural?_of_digits hne hdigits, he]
  rfl

theorem decimal?_of_whole (negative : Bool) {whole tail : List Char} {c : Char} {e : Int}
    (hwhole : ∀ c ∈ whole, isDigit c = true) (hne : whole ≠ []) (hc : isDigit c = false)
    (hpoint : c ≠ '.') (he : exponent? (c :: tail) = some e) :
    decimal? negative (whole ++ c :: tail) =
      Double.ofDecimal? negative (Nat.ofDigitChars 10 whole 0) e := by
  obtain ⟨htake, hdrop⟩ := takeWhile_digits (c :: tail) hwhole (by simpa using hc)
  unfold decimal?
  simp only [htake, hdrop]
  split
  · next h => exact absurd (List.cons.inj h).1 hpoint
  · simp only [List.append_nil, natural?_of_digits hne hwhole, he]
    simp

theorem exponent?_of_power (power : Int) {plus : List Char} (h : plus = [] ∨ plus = ['+']) :
    exponent? ('e' :: ((if power < 0 then ['-'] else plus) ++ Nat.toDigits 10 power.natAbs)) =
      some power := by
  have hnatural : natural? 10 (Nat.toDigits 10 power.natAbs) = some power.natAbs := by
    rw [natural?_of_digits Nat.toDigits_ne_nil fun c hc => isDigit_of_mem_toDigits hc,
      Nat.ofDigitChars_ten_toDigits]
  by_cases hlt : power < 0
  · rw [if_pos hlt]
    simp only [exponent?, List.singleton_append, hnatural]
    simp [abs_of_neg hlt]
  · have hpower : ((power.natAbs : Nat) : Int) = power := Int.natAbs_of_nonneg (by omega)
    rw [if_neg hlt]
    rcases h with rfl | rfl
    · obtain ⟨c, rest, heq, hdigit⟩ := exists_toDigits_cons power.natAbs
      have hplus := ne_of_isDigit hdigit (show isDigit '+' = false by decide)
      have hminus := ne_of_isDigit hdigit (show isDigit '-' = false by decide)
      rw [heq] at hnatural ⊢
      simp [exponent?, hplus, hminus, hnatural, hpower]
    · simp only [exponent?, List.singleton_append, hnatural]
      simp [hpower]

theorem isDigit_of_mem_zeros {n : Nat} {c : Char} (h : c ∈ List.replicate n '0') :
    isDigit c = true := by
  rw [List.eq_of_mem_replicate h]
  decide

section Positions

variable (negative : Bool) {digits : List Char} (h : ∀ x ∈ digits, isDigit x = true)
include h

theorem decimal?_shifted (k : Nat) :
    decimal? negative (digits ++ List.replicate k '0' ++ ['.', '0']) =
      Double.ofDecimal? negative (Nat.ofDigitChars 10 digits 0) k := by
  have hwhole : ∀ x ∈ digits ++ List.replicate k '0', isDigit x = true :=
    fun x hx => (List.mem_append.mp hx).elim (h x) isDigit_of_mem_zeros
  have hvalue : Nat.ofDigitChars 10 (digits ++ List.replicate k '0' ++ ['0']) 0 =
      Nat.ofDigitChars 10 digits 0 * 10 ^ (k + 1) := by
    rw [Nat.ofDigitChars_append, Nat.ofDigitChars_append, Nat.ofDigitChars_replicate_zero,
      Nat.ofDigitChars_cons, Nat.ofDigitChars_nil, Nat.pow_succ]
    simp
    ring
  calc decimal? negative (digits ++ List.replicate k '0' ++ ['.', '0'])
      = Double.ofDecimal? negative
          (Nat.ofDigitChars 10 (digits ++ List.replicate k '0' ++ ['0']) 0) (0 - 1) :=
        decimal?_of_point negative _ ['0'] [] hwhole (List.forall_mem_singleton.2 (by decide))
          (by simp) (by simp) rfl
    _ = Double.ofDecimal? negative (Nat.ofDigitChars 10 digits 0) k := by
        rw [hvalue, Double.ofDecimal?_mul_pow_ten]
        congr 1
        push_cast
        ring

theorem decimal?_split (hne : digits ≠ []) {p : Nat} (hp : p ≤ digits.length) :
    decimal? negative (digits.take p ++ ['.'] ++ digits.drop p) =
      Double.ofDecimal? negative (Nat.ofDigitChars 10 digits 0) (p - digits.length) := by
  have hread := decimal?_of_point negative (digits.take p) (digits.drop p) []
    (fun x hx => h x (List.mem_of_mem_take hx)) (fun x hx => h x (List.mem_of_mem_drop hx)) (by simpa using hne) (by simp) rfl
  rw [List.take_append_drop, List.append_nil, List.length_drop] at hread
  rw [List.append_assoc, List.singleton_append, hread]
  congr 1
  omega

theorem decimal?_below_one (k : Nat) :
    decimal? negative (['0', '.'] ++ List.replicate k '0' ++ digits) =
      Double.ofDecimal? negative (Nat.ofDigitChars 10 digits 0) (-(k + digits.length)) := by
  have hfraction : ∀ x ∈ List.replicate k '0' ++ digits, isDigit x = true :=
    fun x hx => (List.mem_append.mp hx).elim isDigit_of_mem_zeros (h x)
  have hread := decimal?_of_point negative ['0'] _ [] (List.forall_mem_singleton.2 (by decide))
    hfraction (by simp) (by simp) rfl
  have hvalue : Nat.ofDigitChars 10 (['0'] ++ (List.replicate k '0' ++ digits)) 0 =
      Nat.ofDigitChars 10 digits 0 := by
    rw [Nat.ofDigitChars_append, Nat.ofDigitChars_append, Nat.ofDigitChars_replicate_zero,
      Nat.ofDigitChars_cons, Nat.ofDigitChars_nil]
    simp
  rw [hvalue, List.append_nil, List.length_append, List.length_replicate] at hread
  rw [List.append_assoc]
  refine hread.trans ?_
  congr 1
  push_cast
  ring

theorem decimal?_scientific (hne : digits ≠ []) {tail : List Char} {e : Int}
    (he : exponent? ('e' :: tail) = some e) :
    decimal? negative (Double.pointed digits ++ 'e' :: tail) =
      Double.ofDecimal? negative (Nat.ofDigitChars 10 digits 0) (e - (digits.length - 1)) := by
  match digits, hne, h with
  | [x], _, h =>
      refine (decimal?_of_whole negative h (by simp) (by decide) (by decide) he).trans ?_
      simp
  | x :: y :: rest, _, h =>
      refine (decimal?_of_point negative [x] (y :: rest) ('e' :: tail) (fun z hz => h z ?_) (fun z hz => h z (List.mem_cons_of_mem _ hz)) (by simp)
        (by simp [isDigit]) he).trans ?_
      · rw [List.mem_singleton.mp hz]
        exact List.mem_cons_self
      · congr 1
        simp

end Positions

variable {layout : Double.Layout}

theorem decimal?_body (hplus : layout.plus.toList = [] ∨ layout.plus.toList = ['+'])
    {c : Double.Decimal} (hc : c.digits ≠ 0) (negative : Bool) :
    decimal? negative (layout.body c) = c.toDouble? negative := by
  have hdigits : ∀ x ∈ Nat.toDigits 10 c.digits, isDigit x = true :=
    fun x hx => isDigit_of_mem_toDigits hx
  have hvalue : Nat.ofDigitChars 10 (Nat.toDigits 10 c.digits) 0 = c.digits :=
    Nat.ofDigitChars_ten_toDigits
  have hne : Nat.toDigits 10 c.digits ≠ [] := Nat.toDigits_ne_nil
  unfold Double.Layout.body Double.Decimal.toDouble?
  rw [if_neg hc]
  generalize Nat.toDigits 10 c.digits = digits at *
  dsimp only
  split
  · next hshift =>
    obtain ⟨k, hk⟩ := Int.eq_ofNat_of_zero_le hshift.1
    rw [hk, ← hvalue]
    exact decimal?_shifted negative hdigits k
  · split
    · next hsplit =>
      obtain ⟨p, hp⟩ := Int.eq_ofNat_of_zero_le (Int.le_of_lt hsplit.1)
      rw [hp, show Int.toNat (p : Int) = p from rfl,
        decimal?_split negative hdigits hne (by omega), hvalue]
      congr 1
      omega
    · split
      · next hsmall =>
        obtain ⟨k, hk⟩ := Int.eq_ofNat_of_zero_le
          (show 0 ≤ -((digits.length : Int) + c.exponent) by omega)
        rw [hk, show Int.toNat (k : Int) = k from rfl, decimal?_below_one negative hdigits, hvalue]
        congr 1
        omega
      · have hexponent := exponent?_of_power ((digits.length : Int) + c.exponent - 1) hplus
        rw [List.append_assoc, List.append_assoc, List.singleton_append]
        refine (decimal?_scientific negative hdigits hne hexponent).trans ?_
        rw [hvalue]
        congr 1
        omega

theorem mem_pointed {digits : List Char} {x : Char} (hx : x ∈ Double.pointed digits) :
    x = '.' ∨ x ∈ digits := by
  match digits with
  | [] => exact .inr hx
  | [y] => exact .inr hx
  | y :: z :: rest =>
      simp only [Double.pointed, List.mem_cons] at hx ⊢
      rcases hx with rfl | rfl | hx
      · exact .inr (.inl rfl)
      · exact .inl rfl
      · exact .inr (.inr hx)

/-- A written decimal starts with a digit, and a point or an exponent follows. -/
structure Shaped (body : List Char) : Prop where
  numeric : ∀ x ∈ body, isNumeric x = true
  starts : ∃ x ∈ body.head?, isDigit x = true
  marked : '.' ∈ body ∨ 'e' ∈ body

theorem shaped_body (hplus : layout.plus.toList = [] ∨ layout.plus.toList = ['+'])
    (c : Double.Decimal) : Shaped (layout.body c) := by
  have hdigits : ∀ n, ∀ x ∈ Nat.toDigits 10 n, isNumeric x = true :=
    fun n x hx => isNumeric_of_mem_toDigits hx
  have hzeros : ∀ n, ∀ x ∈ List.replicate n '0', isNumeric x = true :=
    fun n x hx => isNumeric_of_isDigit (isDigit_of_mem_zeros hx)
  obtain ⟨d, rest, hcons, hd⟩ := exists_toDigits_cons c.digits
  have hnumeric := hdigits c.digits
  unfold Double.Layout.body
  split
  -- Zero; after it the layouts in the order in which they are tried.
  · exact ⟨List.all_eq_true.1 (by decide), ⟨'0', rfl, by decide⟩, by decide⟩
  · rw [hcons] at hnumeric ⊢
    dsimp only
    split
    · refine ⟨?_, ⟨d, by simp, hd⟩, .inl (by simp)⟩
      simp only [List.mem_append]
      rintro x ((hx | hx) | hx)
      · exact hnumeric x hx
      · exact hzeros _ x hx
      · exact List.all_eq_true.1 (by decide) x hx
    · split
      · next hsplit =>
        obtain ⟨k, hk⟩ : ∃ k, (((d :: rest).length : Int) + c.exponent).toNat = k + 1 :=
          ⟨_, (Nat.succ_pred_eq_of_pos (by omega)).symm⟩
        rw [hk]
        refine ⟨?_, ⟨d, by simp, hd⟩, .inl (by simp)⟩
        simp only [List.mem_append]
        rintro x ((hx | hx) | hx)
        · exact hnumeric x (List.mem_of_mem_take hx)
        · rw [List.mem_singleton.mp hx]
          decide
        · exact hnumeric x (List.mem_of_mem_drop hx)
      · split
        · refine ⟨?_, ⟨'0', rfl, by decide⟩, .inl (by simp)⟩
          simp only [List.mem_append]
          rintro x ((hx | hx) | hx)
          · exact List.all_eq_true.1 (by decide) x hx
          · exact hzeros _ x hx
          · exact hnumeric x hx
        · refine ⟨?_, ⟨d, ?_, hd⟩, .inr (by simp)⟩
          · simp only [List.mem_append]
            rintro x (((hx | hx) | hx) | hx)
            · rcases mem_pointed hx with rfl | hx
              · decide
              · exact hnumeric x hx
            · rw [List.mem_singleton.mp hx]
              decide
            · split at hx
              · rw [List.mem_singleton.mp hx]
                decide
              · rcases hplus with hplus | hplus <;> rw [hplus] at hx
                · exact nomatch hx
                · rw [List.mem_singleton.mp hx]
                  decide
            · exact hdigits _ x hx
          · cases rest <;> simp [Double.pointed]

theorem Shaped.integer?_eq_none {body : List Char} (h : Shaped body) :
    integer? body = none ∧ integer? ('-' :: body) = none ∧ hasLeadingZero body = false ∧
      hasLeadingZero ('-' :: body) = false := by
  obtain ⟨d, hhead, hd⟩ := h.starts
  obtain ⟨rest, rfl⟩ := List.head?_eq_some_iff.mp hhead
  have hmark : ∃ x ∈ d :: rest, isDigit x = false ∧ ∀ n, digit? x = some n → ¬ n < 10 := by
    rcases h.marked with hx | hx
    · exact ⟨'.', hx, by decide, by decide⟩
    · exact ⟨'e', hx, by decide, by simp [digit?]⟩
  obtain ⟨x, hx, hdigit, hten⟩ := hmark
  have hnone := natural?_eq_none hx hten
  have hrest : rest.all isDigit = false := by
    rcases List.mem_cons.mp hx with rfl | hx
    · rw [hd] at hdigit
      exact nomatch hdigit
    · exact List.all_eq_false.mpr ⟨x, hx, by simp [hdigit]⟩
  have hplus := ne_of_isDigit hd (show isDigit '+' = false by decide)
  have hminus := ne_of_isDigit hd (show isDigit '-' = false by decide)
  have hzero : hasLeadingZero (d :: rest) = false ∧ hasLeadingZero ('-' :: d :: rest) = false := by
    by_cases hc : d = '0'
    · subst hc
      simp [hasLeadingZero, hrest]
    · exact hasLeadingZero_of_ne hd hc
  obtain ⟨hpositive, hnegative⟩ := integer?_cons hd h.numeric hzero.1
  rw [hpositive, hnegative hzero.2, hnone]
  exact ⟨rfl, rfl, hzero⟩

theorem toList_render (negative : Bool) (c : Double.Decimal) :
    (layout.render negative c).toList =
      if negative then '-' :: layout.body c else layout.body c := by
  rw [Double.Layout.render, String.toList_ofList]

theorem isNumeric_render (hplus : layout.plus.toList = [] ∨ layout.plus.toList = ['+'])
    (negative : Bool) (c : Double.Decimal) :
    ∀ x ∈ (layout.render negative c).toList, isNumeric x = true := by
  rw [toList_render]
  intro x hx
  cases negative with
  | false => exact (shaped_body hplus c).numeric x hx
  | true =>
      rcases List.mem_cons.mp hx with rfl | hx
      · decide
      · exact (shaped_body hplus c).numeric x hx

theorem resolve_render (hplus : layout.plus.toList = [] ∨ layout.plus.toList = ['+'])
    (negative : Bool) {c : Double.Decimal} {d : Double}
    (hread : decimal? negative (layout.body c) = some d) :
    resolve (layout.render negative c) = .float d := by
  have hnumeric := isNumeric_render hplus negative c
  have hlist : (layout.render negative c).toList = _ := toList_render negative c
  have hshaped := shaped_body hplus c
  obtain ⟨hpositive, hnegative, hzero, hzero'⟩ := hshaped.integer?_eq_none
  obtain ⟨x, hhead, hx⟩ := hshaped.starts
  obtain ⟨rest, hbody⟩ := List.head?_eq_some_iff.mp hhead
  have hplus' := ne_of_isDigit hx (show isDigit '+' = false by decide)
  have hminus' := ne_of_isDigit hx (show isDigit '-' = false by decide)
  have hne : layout.render negative c ≠ "" := by
    intro hempty
    rw [hempty] at hlist
    cases negative <;> simp [hbody] at hlist
  rw [resolve_of_numeric hne hnumeric, integerOf?, float?_of_numeric hnumeric, hlist]
  cases negative with
  | false =>
      simp only [Bool.false_eq_true, if_false, hpositive, hzero]
      rw [hbody] at hread ⊢
      simp [hplus', hminus', hread]
  | true => simp [hnegative, hzero', hread]

theorem resolve_text (hplus : layout.plus.toList = [] ∨ layout.plus.toList = ['+']) {d : Double}
    (h : d.Canonical) : resolve (d.text layout) = .float d := by
  refine resolve_render hplus d.negative ?_
  by_cases hd : d.mantissa = 0
  · have hexponent : d.exponent = Double.minExponent := by
      rcases h.2.2.2 with hfull | hmin
      · rw [hd] at hfull
        exact absurd hfull (by decide)
      · exact hmin
    have hzero : d = Double.zero d.negative := by
      rw [Double.zero, ← hd, ← hexponent]
    rw [Double.shortest, if_pos hd, hzero]
    cases d.negative <;> rfl
  · have hshortest := Double.toDouble?_shortest h hd
    have hdigits : d.shortest.digits ≠ 0 := by
      intro hzero
      rw [Double.Decimal.toDouble?, Double.ofDecimal?, if_pos hzero] at hshortest
      exact hd (by rw [← Option.some.inj hshortest]; rfl)
    rw [decimal?_body hplus hdigits, hshortest]

end Decimal

/-- What is written for a number in range means that number. -/
theorem resolve_json {n : Number} (h : ∀ i, n = .int i → inWord i = true)
    (h' : ∀ d, n = .float d → d.Canonical) :
    resolve n.json = match n with
      | .int i => .int i
      | .float d => .float d := by
  cases n with
  | int i => exact resolve_toString (h i rfl)
  | float d => exact resolve_text (.inr rfl) (h' d rfl)

end ResourceGraph.Yaml.Plain
