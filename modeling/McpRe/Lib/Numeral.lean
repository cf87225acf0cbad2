import Mathlib.Tactic
import McpRe.Lib.Text

/-!
# Unsigned numerals

Digits of a radix, the number a row of them denotes, and the integer parsers of the Rust standard
library on them. Those parsers check each step for overflow; the values of the beginnings of a numeral
do not exceed that of the whole, so they fail exactly when the whole does not fit.
-/

namespace Lib.Numeral

open Lib.Text

/-- `char::to_digit`. -/
def toDigit (radix : Nat) (c : Char) : Option Nat :=
  let digit :=
    if '0' ≤ c ∧ c ≤ '9' then some (c.toNat - 48)
    else if 'a' ≤ c ∧ c ≤ 'z' then some (c.toNat - 87)
    else if 'A' ≤ c ∧ c ≤ 'Z' then some (c.toNat - 55)
    else none
  digit.filter fun d => decide (d < radix)

/-- `char::is_digit`. -/
def isDigit (radix : Nat) (c : Char) : Bool := (toDigit radix c).isSome

/-- The number that digits denote. -/
def value (radix : Nat) (digits : Str) : Nat :=
  digits.foldl (fun acc c => acc * radix + (toDigit radix c).getD 0) 0

/-- `from_str_radix` of an unsigned type with `bound` values: a plus sign is taken, and digits must
follow. -/
def fromStrRadix (radix bound : Nat) (text : Str) : Option Nat :=
  let digits := (stripPrefix ['+'] text).getD text
  if digits ≠ [] ∧ digits.all (isDigit radix) = true ∧ value radix digits < bound then
    some (value radix digits)
  else none

theorem isDigit_plus (radix : Nat) : isDigit radix '+' = false := by
  simp [isDigit, toDigit]

theorem fromStrRadix_of_digits {radix bound : Nat} {digits : Str} (hne : digits ≠ [])
    (hdigits : digits.all (isDigit radix) = true) :
    fromStrRadix radix bound digits
      = if value radix digits < bound then some (value radix digits) else none := by
  have hplain : stripPrefix ['+'] digits = none := by
    rw [Option.eq_none_iff_forall_ne_some]
    rintro t ht
    rw [stripPrefix_eq_some] at ht
    rw [ht, List.all_append, Bool.and_eq_true, List.all_cons, isDigit_plus] at hdigits
    simp at hdigits
  simp only [fromStrRadix, hplain, Option.getD_none, hne, hdigits, ne_eq, not_false_eq_true,
    true_and]

/-! ## Decimal digits to a width -/

theorem toDigit_ten_eq_some {c : Char} {d : Nat} :
    toDigit 10 c = some d ↔ d < 10 ∧ c = Nat.digitChar d := by
  constructor
  · intro h
    simp only [toDigit, Option.filter_eq_some_iff, decide_eq_true_eq] at h
    obtain ⟨h, hlt⟩ := h
    refine ⟨hlt, Char.toNat_inj.1 ?_⟩
    rw [Nat.toNat_digitChar_of_lt_ten hlt]
    by_cases hdigit : '0' ≤ c ∧ c ≤ '9'
    · have hlo : 48 ≤ c.toNat := hdigit.1
      rw [if_pos hdigit, Option.some.injEq] at h
      omega
    · rw [if_neg hdigit] at h
      by_cases hlower : 'a' ≤ c ∧ c ≤ 'z'
      · have hlo : 97 ≤ c.toNat := hlower.1
        rw [if_pos hlower, Option.some.injEq] at h
        omega
      · rw [if_neg hlower] at h
        by_cases hupper : 'A' ≤ c ∧ c ≤ 'Z'
        · have hlo : 65 ≤ c.toNat := hupper.1
          rw [if_pos hupper, Option.some.injEq] at h
          omega
        · rw [if_neg hupper] at h
          cases h
  · rintro ⟨hlt, rfl⟩
    interval_cases d <;> rfl

/-- The last `width` decimal digits of a number, the highest first. -/
def fixed : Nat → Nat → Str
  | 0, _ => []
  | width + 1, v => Nat.digitChar (v / 10 ^ width % 10) :: fixed width v

@[simp]
theorem length_fixed (width v : Nat) : (fixed width v).length = width := by
  induction width with
  | zero => rfl
  | succ width ih => rw [fixed, List.length_cons, ih]

/-- The digits above are not seen. -/
theorem fixed_add (width k v : Nat) : fixed width (k * 10 ^ width + v) = fixed width v := by
  induction width generalizing k with
  | zero => rfl
  | succ width ih =>
    have hsplit : k * 10 ^ (width + 1) + v = k * 10 * 10 ^ width + v := by rw [pow_succ]; ring
    rw [fixed, fixed, hsplit, ih, Nat.add_comm, Nat.add_mul_div_right _ _ (Nat.pow_pos (by decide)),
      Nat.add_mul_mod_self_right]

theorem fixed_succ (width v : Nat) :
    fixed (width + 1) v = fixed width (v / 10) ++ [Nat.digitChar (v % 10)] := by
  induction width with
  | zero => rw [fixed, fixed, fixed, pow_zero, Nat.div_one, List.nil_append]
  | succ width ih =>
    rw [fixed, ih, fixed, Nat.div_div_eq_div_mul, ← pow_succ', List.cons_append]

/-- A number printed to a width that it does not exceed. -/
theorem leftpad_toDigits {width v : Nat} (hwidth : 1 ≤ width) (h : v < 10 ^ width) :
    (Nat.toDigits 10 v).leftpad width '0' = fixed width v := by
  induction width, hwidth using Nat.le_induction generalizing v with
  | base =>
    rw [Nat.toDigits_of_lt_base (by simpa using h), fixed, fixed, pow_zero, Nat.div_one,
      Nat.mod_eq_of_lt (by simpa using h)]
    rfl
  | succ width hwidth ih =>
    rw [fixed_succ, ← ih (by rw [pow_succ] at h; omega), Nat.toDigits_eq_if (by decide)]
    split_ifs with hlt
    · rw [Nat.div_eq_of_lt hlt, Nat.mod_eq_of_lt hlt]
      have hzeros : List.replicate width '0' = List.replicate (width - 1) '0' ++ ['0'] := by
        rw [← List.replicate_succ', Nat.sub_add_cancel hwidth]
      simp only [List.leftpad, Nat.toDigits_zero, List.length_singleton, Nat.add_sub_cancel]
      rw [hzeros]
    · simp [List.leftpad]

end Lib.Numeral
