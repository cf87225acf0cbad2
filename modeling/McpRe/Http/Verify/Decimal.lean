import McpRe.Http.Body
import McpRe.Lib.Split

/-!
# The value of a number token

A `NumberToken` is a number as the JSON grammar writes it, and `value` is the rational it denotes.
`DecimalToken.parse` takes it to a normal form of the same value (`parse_text_eq`), and normal forms of
one value are equal (`eq_of_value_eq`).

* `decimal_token_equality`: equal normal forms are equal values, and what is not parsed has an
  exponent, a fraction or a normal form that leaves the range of an `i32`.
-/

namespace McpRe.Http

open Lib Lib.Text

/-! ## Tokens of the grammar -/

/-- The exponent of a number: the mark, a sign or none, and digits. -/
structure ExponentPart where
  mark : Char
  sign : Option Char
  digits : Str
  mark_eq : mark = 'e' ∨ mark = 'E'
  sign_eq : ∀ c ∈ sign, c = '+' ∨ c = '-'
  isDigits : I64.isDigits digits = true

namespace ExponentPart

def body (e : ExponentPart) : Str := e.sign.toList ++ e.digits

def value (e : ExponentPart) : Int :=
  if e.sign = some '-' then -(Nat.ofDigitChars 10 e.digits 0 : Int)
  else Nat.ofDigitChars 10 e.digits 0

end ExponentPart

/-- A JSON number: a sign, an integer part without a leading zero, a fraction, an exponent. -/
structure NumberToken where
  negative : Bool
  integer : Str
  fraction : Option Str
  exponent : Option ExponentPart
  integer_digits : I64.isDigits integer = true
  integer_plain : I64.noLeadingZero integer = true
  fraction_digits : ∀ digits ∈ fraction, I64.isDigits digits = true

namespace NumberToken

variable (t : NumberToken)

def exponentText : Str :=
  match t.exponent with
  | none => []
  | some e => e.mark :: e.body

def significand : Str := t.integer ++ behind '.' t.fraction

def text : Str := (if t.negative then ['-'] else []) ++ (t.significand ++ t.exponentText)

def written : Int :=
  match t.exponent with
  | none => 0
  | some e => e.value

def digits : Str := t.integer ++ t.fraction.getD []

/-- How many digits are behind the point. -/
def scale : Int := (t.fraction.getD []).length

def value : ℚ :=
  (if t.negative then -1 else 1) * Nat.ofDigitChars 10 t.digits 0 * 10 ^ (t.written - t.scale)

end NumberToken

/-! ## The range of an exponent -/

namespace DecimalToken

theorem i32_eq_some {n m : Int} : i32 n = some m ↔ n = m ∧ -2 ^ 31 ≤ n ∧ n < 2 ^ 31 := by
  unfold i32
  constructor
  · intro h
    split_ifs at h with hrange
    exact ⟨Option.some.inj h, hrange⟩
  · rintro ⟨rfl, hrange⟩
    exact if_pos hrange

theorem i32_ofInt? (n : Int) : ((I64.ofInt? n).bind fun a => i32 a.val) = i32 n := by
  cases h : I64.ofInt? n with
  | some a =>
    rw [I64.ofInt?_eq_some] at h
    rw [h]
    rfl
  | none =>
    symm
    rw [Option.bind_none, Option.eq_none_iff_forall_ne_some]
    intro m hm
    obtain ⟨-, hrange⟩ := i32_eq_some.1 hm
    unfold I64.ofInt? at h
    rw [dif_pos (by omega)] at h
    cases h

theorem parseI32_body (e : ExponentPart) : parseI32 e.body = i32 e.value := by
  obtain ⟨mark, sign, digits, hmark, hsign, hdigits⟩ := e
  unfold parseI32 ExponentPart.body ExponentPart.value
  cases sign with
  | none =>
    have hread : I64.fromStr digits = I64.ofInt? (Nat.ofDigitChars 10 digits 0) :=
      I64.fromStr_of_isDigits hdigits
    simp only [Option.toList_none, List.nil_append, reduceCtorEq, if_false]
    rw [hread, i32_ofInt?]
  | some c =>
    rcases hsign c rfl with rfl | rfl
    · simp only [Option.toList_some, List.singleton_append, I64.fromStr, if_pos hdigits]
      rw [i32_ofInt?, if_neg (by decide)]
    · simp only [Option.toList_some, List.singleton_append, I64.fromStr, if_pos hdigits, if_true]
      rw [i32_ofInt?]

/-! ## What is parsed -/

theorem isDigit_of_mem {s : Str} (h : I64.isDigits s = true) {c : Char} (hc : c ∈ s) :
    c.isDigit = true := by
  simp only [I64.isDigits, Bool.and_eq_true, List.all_eq_true] at h
  exact h.2 c hc

theorem notMem_of_isDigits {s : Str} (h : I64.isDigits s = true) {c : Char}
    (hc : c.isDigit = false) : c ∉ s := by
  intro hmem
  rw [isDigit_of_mem h hmem] at hc
  cases hc

variable (t : NumberToken)

theorem mem_significand {c : Char} (h : c ∈ t.significand) : c.isDigit = true ∨ c = '.' := by
  unfold NumberToken.significand at h
  rcases List.mem_append.1 h with h | h
  · exact .inl (isDigit_of_mem t.integer_digits h)
  · cases hf : t.fraction with
    | none =>
      rw [hf] at h
      cases h
    | some digits =>
      rw [hf] at h
      rcases List.mem_cons.1 h with rfl | h
      · exact .inr rfl
      · exact .inl (isDigit_of_mem (t.fraction_digits digits hf) h)

theorem splitExponent_eq :
    splitExponent (t.significand ++ t.exponentText) = (t.significand, t.exponent.map (·.body)) := by
  have hplain : ∀ c ∈ t.significand, (!(c == 'e' || c == 'E')) = true := by
    intro c hc
    rcases mem_significand t hc with hdigit | rfl
    · have he : c ≠ 'e' := by
        rintro rfl
        exact absurd hdigit (by decide)
      have hE : c ≠ 'E' := by
        rintro rfl
        exact absurd hdigit (by decide)
      simp [he, hE]
    · rfl
  unfold splitExponent
  dsimp only
  rw [List.takeWhile_append_of_pos hplain, List.dropWhile_append_of_pos hplain]
  unfold NumberToken.exponentText
  cases he : t.exponent with
  | none => simp
  | some e =>
    let plain := fun c : Char => !(c == 'e' || c == 'E')
    have hmark : ¬plain e.mark = true := by
      rcases e.mark_eq with h | h <;> simp [plain, h]
    have htake : (e.mark :: e.body).takeWhile plain = [] := List.takeWhile_cons_of_neg hmark
    have hdrop : (e.mark :: e.body).dropWhile plain = e.mark :: e.body :=
      List.dropWhile_cons_of_neg hmark
    change (t.significand ++ (e.mark :: e.body).takeWhile plain,
      ((e.mark :: e.body).dropWhile plain).tail?) = _
    rw [htake, hdrop, List.append_nil]
    rfl

theorem splitOnce_significand :
    (splitOnce '.' t.significand).getD (t.significand, []) = (t.integer, t.fraction.getD []) := by
  have hdot : '.' ∉ t.integer := notMem_of_isDigits t.integer_digits (by decide)
  unfold NumberToken.significand
  cases t.fraction with
  | none => simp [behind, splitOnce_eq_none.2 hdot]
  | some digits => simp [behind, splitOnce_append hdot]

theorem all_isDigit_digits : t.digits.all Char.isDigit = true := by
  rw [List.all_eq_true]
  intro c hc
  rcases List.mem_append.1 hc with hc | hc
  · exact isDigit_of_mem t.integer_digits hc
  · cases hf : t.fraction with
    | none =>
      rw [hf] at hc
      cases hc
    | some digits =>
      rw [hf] at hc
      exact isDigit_of_mem (t.fraction_digits digits hf) hc

theorem integer_ne_nil : t.integer ≠ [] := by
  intro hnil
  have hdigits := t.integer_digits
  rw [hnil] at hdigits
  cases hdigits

def parseUnsigned (negative : Bool) (unsigned : Str) : Option DecimalToken := do
  let (significand, exponentText) := splitExponent unsigned
  let exponent ← match exponentText with
    | some text => parseI32 text
    | none => some 0
  let (integer, fraction) := (splitOnce '.' significand).getD (significand, [])
  if integer.isEmpty && fraction.isEmpty then none
  else if !(integer ++ fraction).all Char.isDigit then none
  else do
    let scale ← i32 fraction.length
    normalized negative (integer ++ fraction) (← i32 (exponent - scale))

theorem parse_eq_parseUnsigned :
    parse t.text = parseUnsigned t.negative (t.significand ++ t.exponentText) := by
  unfold NumberToken.text
  cases t.negative with
  | true => rfl
  | false =>
    obtain ⟨c, rest, hinteger⟩ := List.exists_cons_of_ne_nil (integer_ne_nil t)
    have hdigit : c.isDigit = true := isDigit_of_mem t.integer_digits (by rw [hinteger]; simp)
    have hhead : ∃ tail, t.significand ++ t.exponentText = c :: tail := by
      unfold NumberToken.significand
      rw [hinteger]
      exact ⟨_, rfl⟩
    obtain ⟨tail, htail⟩ := hhead
    have hplain : ∀ m, m.isDigit = false → stripPrefix [m] (c :: tail) = none := by
      intro m hm
      have hne : m ≠ c := by
        rintro rfl
        rw [hdigit] at hm
        cases hm
      simp [stripPrefix, hne]
    simp only [Bool.false_eq_true, if_false, List.nil_append]
    rw [htail]
    unfold parse
    rw [hplain '-' (by decide), hplain '+' (by decide)]
    rfl

theorem parse_text_eq :
    parse t.text = (i32 t.written).bind fun exponent => (i32 t.scale).bind fun scale =>
      (i32 (exponent - scale)).bind (normalized t.negative t.digits) := by
  have hempty : (t.integer.isEmpty && (t.fraction.getD []).isEmpty) = false := by
    have := integer_ne_nil t
    simp [this]
  have hdigits : (t.integer ++ t.fraction.getD []).all Char.isDigit = true := all_isDigit_digits t
  rw [parse_eq_parseUnsigned]
  unfold parseUnsigned
  rw [splitExponent_eq]
  dsimp only
  rw [splitOnce_significand]
  dsimp only
  rw [hempty, hdigits]
  unfold NumberToken.written NumberToken.scale NumberToken.digits
  cases t.exponent with
  | none => rfl
  | some e =>
    simp only [Option.map_some, parseI32_body]
    rfl

/-! ## The normal form -/

theorem dropZeros_eq {reversed : Str} {exponent : Int} (h : -2 ^ 31 ≤ exponent ∧ exponent < 2 ^ 31) :
    dropZeros reversed exponent =
      (i32 (exponent + (reversed.takeWhile (· == '0')).length)).map fun e =>
        (reversed.dropWhile (· == '0'), e) := by
  induction reversed generalizing exponent with
  | nil =>
    rw [dropZeros, List.takeWhile_nil, List.length_nil, Nat.cast_zero, add_zero, i32, if_pos h]
    · rfl
    · exact nofun
  | cons c rest ih =>
    by_cases hc : c = '0'
    · subst hc
      rw [dropZeros, List.takeWhile_cons_of_pos (by decide), List.dropWhile_cons_of_pos (by decide),
        List.length_cons]
      by_cases hnext : -2 ^ 31 ≤ exponent + 1 ∧ exponent + 1 < 2 ^ 31
      · have hsum : exponent + 1 + ((rest.takeWhile (· == '0')).length : Int)
            = exponent + ((rest.takeWhile (· == '0')).length + 1 : Nat) := by
          push_cast
          ring
        rw [i32, if_pos hnext, Option.bind_some, ih hnext, hsum]
      · rw [i32, if_neg hnext, Option.bind_none, i32, if_neg (by push_cast; omega)]
        rfl
    · rw [dropZeros, List.takeWhile_cons_of_neg (by simpa using hc),
        List.dropWhile_cons_of_neg (by simpa using hc), List.length_nil, Nat.cast_zero, add_zero,
        i32, if_pos h]
      · rfl
      · intro rest' heq
        exact hc (List.cons.inj heq).1

def stripped (digits : Str) : Str := digits.dropWhile (· == '0')

def trailing (digits : Str) : Nat := ((stripped digits).reverse.takeWhile (· == '0')).length

def core (digits : Str) : Str := ((stripped digits).reverse.dropWhile (· == '0')).reverse

theorem normalized_eq {negative : Bool} {digits : Str} {exponent : Int}
    (h : -2 ^ 31 ≤ exponent ∧ exponent < 2 ^ 31) :
    normalized negative digits exponent = (i32 (exponent + trailing digits)).map fun e =>
      if core digits = [] then ⟨false, [], 0⟩ else ⟨negative, core digits, e⟩ := by
  unfold normalized
  have hdrop : dropZeros (digits.dropWhile (· == '0')).reverse exponent = _ := dropZeros_eq h
  rw [hdrop]
  unfold trailing core stripped
  cases i32 (exponent + ((digits.dropWhile (· == '0')).reverse.takeWhile (· == '0')).length) with
  | none => rfl
  | some e =>
    simp only [Option.map_some, Option.bind_eq_bind, Option.bind_some, List.isEmpty_iff,
      List.reverse_eq_nil_iff]
    split_ifs <;> rfl

/-! ## Values -/

def number (digits : Str) : Nat := Nat.ofDigitChars 10 digits 0

def value (x : DecimalToken) : ℚ :=
  (if x.negative then -1 else 1) * number x.digits * 10 ^ x.exponent

theorem ofDigitChars_zeros (n init : Nat) :
    Nat.ofDigitChars 10 (List.replicate n '0') init = init * 10 ^ n := by
  induction n generalizing init with
  | zero => rw [List.replicate_zero, Nat.ofDigitChars_nil, pow_zero, mul_one]
  | succ n ih =>
    rw [List.replicate_succ, Nat.ofDigitChars_cons, ih, pow_succ]
    simp only [Nat.sub_self, Nat.add_zero]
    ring

theorem takeWhile_zeros (s : Str) :
    s.takeWhile (· == '0') = List.replicate (s.takeWhile (· == '0')).length '0' := by
  refine List.eq_replicate_of_mem fun c hc => ?_
  simpa using List.mem_takeWhile_imp hc

theorem stripped_eq (digits : Str) :
    stripped digits = core digits ++ List.replicate (trailing digits) '0' := by
  unfold core trailing
  rw [← List.reverse_inj, List.reverse_append, List.reverse_reverse, List.reverse_replicate,
    ← takeWhile_zeros, List.takeWhile_append_dropWhile]

/-- Digits are zeros, then the ones that count, then zeros. -/
theorem digits_eq (digits : Str) :
    digits = List.replicate (digits.takeWhile (· == '0')).length '0' ++
      (core digits ++ List.replicate (trailing digits) '0') := by
  rw [← stripped_eq, ← takeWhile_zeros]
  exact (List.takeWhile_append_dropWhile).symm

theorem number_eq_core (digits : Str) :
    number digits = number (core digits) * 10 ^ trailing digits := by
  unfold number
  conv_lhs => rw [digits_eq digits]
  rw [Nat.ofDigitChars_append, ofDigitChars_zeros, zero_mul, Nat.ofDigitChars_append,
    ofDigitChars_zeros]

/-- What the normal form keeps to. -/
structure IsNormal (x : DecimalToken) : Prop where
  digit : ∀ c ∈ x.digits, c.isDigit = true
  head : x.digits.head? ≠ some '0'
  last : x.digits.getLast? ≠ some '0'
  zero : x.digits = [] → x.negative = false ∧ x.exponent = 0

theorem head?_dropWhile_ne (s : Str) : (s.dropWhile (· == '0')).head? ≠ some '0' := by
  intro h
  have hhead := List.head?_dropWhile_not (· == '0') s
  rw [h] at hhead
  cases hhead

theorem core_head (digits : Str) : (core digits).head? ≠ some '0' := by
  intro h
  have hne : core digits ≠ [] := by
    intro hnil
    rw [hnil] at h
    cases h
  have hstripped : (stripped digits).head? = some '0' := by
    rw [stripped_eq, List.head?_append_of_ne_nil _ hne, h]
  exact head?_dropWhile_ne digits hstripped

theorem core_last (digits : Str) : (core digits).getLast? ≠ some '0' := by
  unfold core
  rw [List.getLast?_reverse]
  exact head?_dropWhile_ne _

theorem mem_core {digits : Str} {c : Char} (h : c ∈ core digits) : c ∈ digits := by
  rw [digits_eq digits]
  exact List.mem_append_right _ (List.mem_append_left _ h)

/-- **The normal form has the value of the digits it is made from.** -/
theorem normalized_spec {negative : Bool} {digits : Str} {exponent : Int} {x : DecimalToken}
    (hrange : -2 ^ 31 ≤ exponent ∧ exponent < 2 ^ 31)
    (hdigits : ∀ c ∈ digits, c.isDigit = true)
    (h : normalized negative digits exponent = some x) :
    IsNormal x ∧ x.value = (if negative then -1 else 1) * number digits * 10 ^ exponent := by
  rw [normalized_eq hrange, Option.map_eq_some_iff] at h
  obtain ⟨e, he, rfl⟩ := h
  obtain ⟨rfl, -⟩ := i32_eq_some.1 he
  by_cases hcore : core digits = []
  · rw [if_pos hcore]
    refine ⟨⟨nofun, nofun, nofun, fun _ => ⟨rfl, rfl⟩⟩, ?_⟩
    rw [number_eq_core, hcore]
    simp [value, number]
  · rw [if_neg hcore]
    refine ⟨⟨fun c hc => hdigits c (mem_core hc), core_head digits, core_last digits,
      fun hnil => absurd hnil hcore⟩, ?_⟩
    unfold value
    dsimp only
    rw [number_eq_core digits, zpow_add₀ (by norm_num), zpow_natCast]
    push_cast
    ring

/-! ## Uniqueness -/

/-- Numbers that ten does not divide, times powers of ten. -/
theorem scaled_inj {m m' : Nat} {e e' : Int} (hm : m % 10 ≠ 0) (hm' : m' % 10 ≠ 0)
    (h : (m : ℚ) * 10 ^ e = m' * 10 ^ e') : m = m' ∧ e = e' := by
  have hle : ∀ {m m' : Nat} {e e' : Int}, m % 10 ≠ 0 → (m : ℚ) * 10 ^ e = m' * 10 ^ e' →
      e ≤ e' → m = m' ∧ e = e' := by
    intro m m' e e' hm h hle
    obtain ⟨k, rfl⟩ := Int.le.dest hle
    rw [zpow_add₀ (by norm_num), zpow_natCast, mul_comm ((10 : ℚ) ^ e), ← mul_assoc] at h
    have hcancel : (m : ℚ) = m' * 10 ^ k := mul_right_cancel₀ (by positivity) h
    have hnat : m = m' * 10 ^ k := by exact_mod_cast hcancel
    cases k with
    | zero => simpa using hnat
    | succ k =>
      rw [pow_succ, ← mul_assoc] at hnat
      omega
  rcases le_total e e' with hee | hee
  · exact hle hm h hee
  · obtain ⟨hmm, hexp⟩ := hle hm' h.symm hee
    exact ⟨hmm.symm, hexp.symm⟩

theorem number_pos {x : DecimalToken} (hx : IsNormal x) (hne : x.digits ≠ []) :
    0 < number x.digits ∧ Nat.toDigits 10 (number x.digits) = x.digits := by
  refine I64.toDigits_ofDigitChars_of_head ?_ hx.head
  simp only [I64.isDigits, Bool.and_eq_true, Bool.not_eq_true', List.isEmpty_eq_false_iff,
    List.all_eq_true]
  exact ⟨hne, hx.digit⟩

theorem number_mod_ten {x : DecimalToken} (hx : IsNormal x) (hne : x.digits ≠ []) :
    number x.digits % 10 ≠ 0 := by
  obtain ⟨init, c, heq⟩ := List.eq_nil_or_concat' x.digits |>.resolve_left hne
  obtain ⟨k, hk, rfl⟩ := I64.exists_digitChar (hx.digit c (by rw [heq]; simp))
  have hk0 : k ≠ 0 := by
    rintro rfl
    exact hx.last (by rw [heq]; simp)
  unfold number
  rw [heq, Nat.ofDigitChars_append, Nat.ofDigitChars_cons_digitChar_of_lt_ten hk,
    Nat.ofDigitChars_nil]
  omega

theorem value_eq_zero_iff {x : DecimalToken} (hx : IsNormal x) : x.value = 0 ↔ x.digits = [] := by
  constructor
  · intro h
    by_contra hne
    obtain ⟨hpos, -⟩ := number_pos hx hne
    unfold value at h
    have hsign : (if x.negative then (-1 : ℚ) else 1) ≠ 0 := by split_ifs <;> norm_num
    have hnumber : (number x.digits : ℚ) ≠ 0 := by exact_mod_cast hpos.ne'
    exact mul_ne_zero (mul_ne_zero hsign hnumber) (by positivity) h
  · intro h
    unfold value
    rw [h]
    simp [number]

/-- **Normal forms of one value are equal.** -/
theorem eq_of_value_eq {x y : DecimalToken} (hx : IsNormal x) (hy : IsNormal y)
    (h : x.value = y.value) : x = y := by
  by_cases hxz : x.digits = []
  · have hyz : y.digits = [] := by
      rw [← value_eq_zero_iff hy, ← h, value_eq_zero_iff hx]
      exact hxz
    obtain ⟨hxn, hxe⟩ := hx.zero hxz
    obtain ⟨hyn, hye⟩ := hy.zero hyz
    obtain ⟨xn, xd, xe⟩ := x
    obtain ⟨yn, yd, ye⟩ := y
    simp_all
  · have hyz : y.digits ≠ [] := by
      rw [ne_eq, ← value_eq_zero_iff hy, ← h, value_eq_zero_iff hx]
      exact hxz
    obtain ⟨hxpos, hxdigits⟩ := number_pos hx hxz
    obtain ⟨hypos, hydigits⟩ := number_pos hy hyz
    have hxq : (0 : ℚ) < number x.digits * 10 ^ x.exponent := by positivity
    have hyq : (0 : ℚ) < number y.digits * 10 ^ y.exponent := by positivity
    unfold value at h
    rw [mul_assoc, mul_assoc] at h
    -- the signs agree, since the magnitudes are positive
    have hsign : x.negative = y.negative := by
      cases hxn : x.negative <;> cases hyn : y.negative <;> rw [hxn, hyn] at h <;> first
        | rfl
        | (simp only [Bool.false_eq_true, if_false, if_true] at h; linarith)
    have hmagnitude : (number x.digits : ℚ) * 10 ^ x.exponent = number y.digits * 10 ^ y.exponent := by
      rw [hsign] at h
      split_ifs at h <;> linarith
    obtain ⟨hnumber, hexponent⟩ :=
      scaled_inj (number_mod_ten hx hxz) (number_mod_ten hy hyz) hmagnitude
    have hdigits : x.digits = y.digits := by rw [← hxdigits, ← hydigits, hnumber]
    obtain ⟨xn, xd, xe⟩ := x
    obtain ⟨yn, yd, ye⟩ := y
    simp_all

/-! ## Tokens -/

/-- The range of the exponent type. -/
def FitsI32 (n : Int) : Prop := -2 ^ 31 ≤ n ∧ n < 2 ^ 31

/-- Every number that `parse` works with is in the range: the exponent as written, the count of the
digits behind the point, the exponent moved down by it, and moved up again by the zeros dropped. -/
structure InRange (t : NumberToken) : Prop where
  written : FitsI32 t.written
  scale : FitsI32 t.scale
  lowered : FitsI32 (t.written - t.scale)
  raised : FitsI32 (t.written - t.scale + trailing t.digits)

theorem i32_of_fits {n : Int} (h : FitsI32 n) : i32 n = some n := if_pos h

theorem parse_eq_none_iff (t : NumberToken) : parse t.text = none ↔ ¬InRange t := by
  constructor
  · intro h hin
    rw [parse_text_eq, i32_of_fits hin.written, Option.bind_some, i32_of_fits hin.scale,
      Option.bind_some, i32_of_fits hin.lowered, Option.bind_some, normalized_eq hin.lowered,
      i32_of_fits hin.raised] at h
    cases h
  · intro hout
    rw [Option.eq_none_iff_forall_ne_some]
    intro x hx
    rw [parse_text_eq] at hx
    simp only [Option.bind_eq_some_iff, i32_eq_some] at hx
    obtain ⟨_, ⟨rfl, hwritten⟩, _, ⟨rfl, hscale⟩, _, ⟨rfl, hlowered⟩, hx⟩ := hx
    rw [normalized_eq hlowered, Option.map_eq_some_iff] at hx
    obtain ⟨e, he, -⟩ := hx
    exact hout ⟨hwritten, hscale, hlowered, (i32_eq_some.1 he).2⟩

theorem parse_spec {t : NumberToken} {x : DecimalToken} (h : parse t.text = some x) :
    IsNormal x ∧ x.value = t.value := by
  rw [parse_text_eq] at h
  simp only [Option.bind_eq_some_iff, i32_eq_some] at h
  obtain ⟨_, ⟨rfl, -⟩, _, ⟨rfl, -⟩, _, ⟨rfl, hlowered⟩, h⟩ := h
  exact normalized_spec hlowered (List.all_eq_true.1 (all_isDigit_digits t)) h

/-- **Equality of the parsed tokens is equality of the numbers they denote**, and a token is not parsed
exactly when one of the numbers involved is out of range. -/
theorem decimal_token_equality :
    (∀ (a b : NumberToken) (x y : DecimalToken), parse a.text = some x → parse b.text = some y →
      (x = y ↔ a.value = b.value)) ∧
    ∀ t : NumberToken, parse t.text = none ↔ ¬InRange t := by
  refine ⟨fun a b x y hx hy => ?_, parse_eq_none_iff⟩
  obtain ⟨hnormal, hvalue⟩ := parse_spec hx
  obtain ⟨hnormal', hvalue'⟩ := parse_spec hy
  rw [← hvalue, ← hvalue']
  exact ⟨congrArg value, eq_of_value_eq hnormal hnormal'⟩

end DecimalToken

namespace DecimalSample

def power : NumberToken where
  negative := false
  integer := ['1']
  fraction := none
  exponent := some ⟨'e', none, ['2'], .inl rfl, nofun, rfl⟩
  integer_digits := rfl
  integer_plain := rfl
  fraction_digits := nofun

def point : NumberToken where
  negative := false
  integer := ['1', '0', '0']
  fraction := some ['0']
  exponent := none
  integer_digits := rfl
  integer_plain := rfl
  fraction_digits := fun _ hdigits => by cases hdigits; rfl

theorem decimal_token_equality_hundred :
    DecimalToken.parse power.text = DecimalToken.parse point.text ∧ power.value = point.value := by
  have hpower : DecimalToken.parse power.text = some ⟨false, ['1'], 2⟩ := by decide
  have hpoint : DecimalToken.parse point.text = some ⟨false, ['1'], 2⟩ := by decide
  refine ⟨hpower.trans hpoint.symm, ?_⟩
  exact (DecimalToken.decimal_token_equality.1 power point _ _ hpower hpoint).1 rfl

def overExponent : NumberToken where
  negative := false
  integer := ['0']
  fraction := some ['1']
  exponent := some ⟨'e', none, ['2', '1', '4', '7', '4', '8', '3', '6', '4', '8'], .inl rfl, nofun, rfl⟩
  integer_digits := rfl
  integer_plain := rfl
  fraction_digits := fun _ hdigits => by cases hdigits; rfl

/-- **The exponent that the value has fits, the one that is written does not, and the token is not
parsed.** -/
theorem overExponent_not_parsed :
    DecimalToken.parse overExponent.text = none ∧
      overExponent.written - overExponent.scale + DecimalToken.trailing overExponent.digits
        = 2 ^ 31 - 1 := by
  have hwritten : overExponent.written = 2147483648 := by decide
  refine ⟨(DecimalToken.parse_eq_none_iff overExponent).2 fun hin => ?_, by decide⟩
  have hfits := hin.written
  rw [hwritten] at hfits
  exact absurd hfits.2 (by decide)

end DecimalSample

end McpRe.Http
