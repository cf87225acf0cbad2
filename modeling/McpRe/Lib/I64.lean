import Mathlib.Tactic
import McpRe.Lib.Text

/-!
# 64-bit signed integers and their decimal text

`I64` is an integer within the range of a Rust `i64`, with the saturating operations and the
decimal text of one.

* `val_saturatingAdd`, `val_saturatingSub`: saturation is a clamp of the exact result;
* `fromStr_display`: the printed text reads back;
* `display_of_fromStr_digits`, `display_of_fromStr_neg`: text without a leading or a negative zero
  is the printed text of what it reads as.
-/

namespace Lib

open Lib.Text

/-- A Rust `i64`. -/
@[ext]
structure I64 where
  val : Int
  min_le : -2 ^ 63 ≤ val
  le_max : val ≤ 2 ^ 63 - 1
  deriving DecidableEq, Repr

namespace I64

theorem val_injective : Function.Injective I64.val := fun _ _ => I64.ext

instance : LinearOrder I64 := LinearOrder.lift' I64.val val_injective

theorem le_iff {a b : I64} : a ≤ b ↔ a.val ≤ b.val := Iff.rfl

theorem lt_iff {a b : I64} : a < b ↔ a.val < b.val := Iff.rfl

theorem val_max (a b : I64) : (max a b).val = max a.val b.val := by
  rcases le_total a b with h | h
  · rw [max_eq_right h, max_eq_right (le_iff.1 h)]
  · rw [max_eq_left h, max_eq_left (le_iff.1 h)]

/-- The nearest `i64` to an integer. -/
def clamp (n : Int) : I64 where
  val := max (-2 ^ 63) (min n (2 ^ 63 - 1))
  min_le := by omega
  le_max := by omega

instance (n : Nat) : OfNat I64 n := ⟨clamp n⟩

def saturatingAdd (a b : I64) : I64 := clamp (a.val + b.val)

def saturatingSub (a b : I64) : I64 := clamp (a.val - b.val)

theorem val_saturatingAdd (a b : I64) :
    (a.saturatingAdd b).val = max (-2 ^ 63) (min (a.val + b.val) (2 ^ 63 - 1)) := rfl

theorem val_saturatingSub (a b : I64) :
    (a.saturatingSub b).val = max (-2 ^ 63) (min (a.val - b.val) (2 ^ 63 - 1)) := rfl

/-- The `i64` of an integer in range. -/
def ofInt? (n : Int) : Option I64 :=
  if h : -2 ^ 63 ≤ n ∧ n ≤ 2 ^ 63 - 1 then some ⟨n, h.1, h.2⟩ else none

theorem ofInt?_eq_some {n : Int} {a : I64} : ofInt? n = some a ↔ n = a.val := by
  unfold ofInt?
  split_ifs with h
  · simp [I64.ext_iff]
  · simp only [false_iff]
    rintro rfl
    exact h ⟨a.min_le, a.le_max⟩

@[simp]
theorem ofInt?_val (a : I64) : ofInt? a.val = some a := ofInt?_eq_some.2 rfl

/-! ## Decimal text -/

/-- `i64::to_string`. -/
def display (a : I64) : Str :=
  if a.val < 0 then '-' :: Nat.toDigits 10 a.val.natAbs else Nat.toDigits 10 a.val.natAbs

/-- A non-empty run of ASCII digits. -/
def isDigits (s : Str) : Bool :=
  !s.isEmpty && s.all Char.isDigit

/-- `str::parse::<i64>`: an optional sign, then digits, in range. -/
def fromStr : Str → Option I64
  | '-' :: ds => if isDigits ds then ofInt? (-(Nat.ofDigitChars 10 ds 0 : Int)) else none
  | '+' :: ds => if isDigits ds then ofInt? (Nat.ofDigitChars 10 ds 0) else none
  | ds => if isDigits ds then ofInt? (Nat.ofDigitChars 10 ds 0) else none

theorem isDigits_toDigits (n : Nat) : isDigits (Nat.toDigits 10 n) = true := by
  simp only [isDigits, Bool.and_eq_true, Bool.not_eq_true', List.isEmpty_eq_false_iff,
    List.all_eq_true]
  exact ⟨Nat.toDigits_ne_nil, fun c hc => Nat.isDigit_of_mem_toDigits (by decide) (by decide) hc⟩

/-- Digits with no sign in front are read as a natural number. -/
theorem fromStr_of_isDigits {ds : Str} (h : isDigits ds = true) :
    fromStr ds = ofInt? (Nat.ofDigitChars 10 ds 0) := by
  have hsign : ∀ c cs, ds = c :: cs → c ≠ '-' ∧ c ≠ '+' := by
    rintro c cs rfl
    simp only [isDigits, Bool.and_eq_true, List.all_cons] at h
    constructor <;> (rintro rfl; simp at h)
  unfold fromStr
  split
  next cs => exact absurd rfl (hsign _ cs rfl).1
  next cs => exact absurd rfl (hsign _ cs rfl).2
  next => rw [if_pos h]

/-- **The printed text of an `i64` reads back.** -/
theorem fromStr_display (a : I64) : fromStr a.display = some a := by
  unfold display
  split_ifs with h
  · rw [fromStr, if_pos (isDigits_toDigits _), Nat.ofDigitChars_ten_toDigits, ofInt?_eq_some]
    omega
  · rw [fromStr_of_isDigits (isDigits_toDigits _), Nat.ofDigitChars_ten_toDigits, ofInt?_eq_some]
    omega

/-! ## One text per number -/

theorem exists_digitChar {c : Char} (h : c.isDigit = true) : ∃ k < 10, c = Nat.digitChar k := by
  have hc : 48 ≤ c.toNat ∧ c.toNat ≤ 57 := by
    simp only [Char.isDigit, ge_iff_le, Bool.and_eq_true, decide_eq_true_eq] at h
    exact ⟨UInt32.le_iff_toNat_le.1 h.1, UInt32.le_iff_toNat_le.1 h.2⟩
  refine ⟨c.toNat - 48, by omega, Char.toNat_inj.1 ?_⟩
  rw [Nat.toNat_digitChar_of_lt_ten (by omega)]
  omega

theorem toDigits_ofDigitChars_of_head {ds : Str} (hd : isDigits ds = true)
    (hz : ds.head? ≠ some '0') :
    0 < Nat.ofDigitChars 10 ds 0 ∧ Nat.toDigits 10 (Nat.ofDigitChars 10 ds 0) = ds := by
  induction ds using List.reverseRecOn with
  | nil => simp [isDigits] at hd
  | append_singleton ds d ih =>
    have hdig : d.isDigit = true := by simp [isDigits] at hd; exact hd.2
    obtain ⟨k, hk, rfl⟩ := exists_digitChar hdig
    rw [Nat.ofDigitChars_append, Nat.ofDigitChars_cons_digitChar_of_lt_ten hk,
      Nat.ofDigitChars_nil]
    by_cases hnil : ds = []
    · subst hnil
      have hk0 : k ≠ 0 := by rintro rfl; simp at hz
      rw [Nat.ofDigitChars_nil, Nat.mul_zero, Nat.zero_add, Nat.toDigits_of_lt_base hk]
      exact ⟨by omega, rfl⟩
    · have hds : isDigits ds = true := by
        simp only [isDigits, List.all_append] at hd ⊢
        simp_all
      have hz' : ds.head? ≠ some '0' := by
        cases ds with
        | nil => exact absurd rfl hnil
        | cons c cs => simpa using hz
      obtain ⟨hpos, heq⟩ := ih hds hz'
      refine ⟨by omega, ?_⟩
      rw [← Nat.toDigits_append_toDigits (by decide) hpos hk, heq, Nat.toDigits_of_lt_base hk]

theorem head?_toDigits {n : Nat} (h : 0 < n) : (Nat.toDigits 10 n).head? ≠ some '0' := by
  induction n using Nat.strongRecOn with
  | ind n ih =>
    rw [Nat.toDigits_eq_if (by decide)]
    split_ifs with hlt
    · simpa using h.ne'
    · have := ih (n / 10) (by omega) (by omega)
      rwa [List.head?_append_of_ne_nil _ Nat.toDigits_ne_nil]

/-- No zero in front of another digit. -/
def noLeadingZero (ds : Str) : Bool :=
  !(decide (1 < ds.length) && ds.head? == some '0')

theorem noLeadingZero_toDigits (n : Nat) : noLeadingZero (Nat.toDigits 10 n) = true := by
  rcases Nat.eq_zero_or_pos n with rfl | h
  · rfl
  · simp [noLeadingZero, head?_toDigits h]

theorem toDigits_ne_zero {n : Nat} (h : 0 < n) : Nat.toDigits 10 n ≠ ['0'] := by
  intro heq
  exact head?_toDigits h (by rw [heq]; rfl)

theorem toDigits_ofDigitChars {ds : Str} (hd : isDigits ds = true) (hz : noLeadingZero ds = true) :
    Nat.toDigits 10 (Nat.ofDigitChars 10 ds 0) = ds := by
  by_cases hh : ds.head? = some '0'
  · -- the only numeral that starts with a zero is the zero itself
    cases ds with
    | nil => simp at hh
    | cons c cs =>
      obtain rfl : c = '0' := by simpa using hh
      obtain rfl : cs = [] := by
        cases cs with
        | nil => rfl
        | cons x xs => simp [noLeadingZero] at hz
      rfl
  · exact (toDigits_ofDigitChars_of_head hd hh).2

theorem display_of_fromStr_digits {ds : Str} {a : I64} (hd : isDigits ds = true)
    (hz : noLeadingZero ds = true) (h : fromStr ds = some a) : a.display = ds := by
  rw [fromStr_of_isDigits hd, ofInt?_eq_some] at h
  rw [display, if_neg (by omega), ← h, Int.natAbs_natCast, toDigits_ofDigitChars hd hz]

theorem display_of_fromStr_neg {ds : Str} {a : I64} (hd : isDigits ds = true)
    (hz : noLeadingZero ds = true) (h0 : ds ≠ ['0']) (h : fromStr ('-' :: ds) = some a) :
    a.display = '-' :: ds := by
  rw [fromStr, if_pos hd, ofInt?_eq_some] at h
  have hds := toDigits_ofDigitChars hd hz
  have hne : Nat.ofDigitChars 10 ds 0 ≠ 0 := by
    intro hzero
    rw [hzero] at hds
    exact h0 hds.symm
  rw [display, if_pos (by omega), ← h, Int.natAbs_neg, Int.natAbs_natCast, hds]

theorem mem_display {a : I64} {c : Char} (h : c ∈ a.display) : c = '-' ∨ c.isDigit = true := by
  have hdigit : ∀ n, c ∈ Nat.toDigits 10 n → c.isDigit = true := fun n hc =>
    Nat.isDigit_of_mem_toDigits (by decide) (by decide) hc
  rw [display] at h
  split_ifs at h
  · rcases List.mem_cons.1 h with h | h
    · exact .inl h
    · exact .inr (hdigit _ h)
  · exact .inr (hdigit _ h)

theorem display_ne_nil (a : I64) : a.display ≠ [] := by
  rw [display]
  split_ifs
  · simp
  · exact Nat.toDigits_ne_nil

end I64

end Lib
