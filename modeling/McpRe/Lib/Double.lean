import Mathlib.Tactic

/-!
# Integers as binary64 numbers

A language whose numbers are binary64 adds integers exactly up to `2 ^ 53` and rounds beyond, to the
nearest number of 53 significant bits and to the even one of two. Magnitudes that overflow the
exponent are left out.
-/

namespace Lib.Double

def roundNat (n : Nat) : Nat :=
  if n < 2 ^ 53 then n
  else
    let e := n.log2 - 52
    let q := n / 2 ^ e
    let r := n % 2 ^ e
    (if 2 * r < 2 ^ e then q else if 2 ^ e < 2 * r then q + 1 else q + q % 2) * 2 ^ e

def round (n : Int) : Int := n.sign * roundNat n.natAbs

/-- `+` on numbers that are integers. -/
def add (a b : Int) : Int := round (a + b)

/-- `Number.MAX_SAFE_INTEGER`. -/
def maxSafeInteger : Nat := 2 ^ 53 - 1

def Safe (n : Int) : Prop := n.natAbs ≤ maxSafeInteger

instance (n : Int) : Decidable (Safe n) := inferInstanceAs (Decidable (_ ≤ _))

theorem roundNat_of_le {n : Nat} (h : n ≤ 2 ^ 53) : roundNat n = n := by
  rcases Nat.lt_or_eq_of_le h with h | rfl
  · rw [roundNat, if_pos h]
  · decide +kernel

theorem le_roundNat {n : Nat} (h : 2 ^ 53 ≤ n) : 2 ^ 53 ≤ roundNat n := by
  have hlog : 53 ≤ n.log2 := (Nat.le_log2 (by omega)).2 h
  obtain ⟨k, hk⟩ : ∃ k, n.log2 - 52 = k + 1 := ⟨n.log2 - 53, by omega⟩
  -- 53 bits are left of the shift
  have hq : 2 ^ 52 ≤ n / 2 ^ (k + 1) := by
    rw [Nat.le_div_iff_mul_le (Nat.two_pow_pos _), ← Nat.pow_add, ← hk]
    have hself : 2 ^ n.log2 ≤ n := Nat.log2_self_le (by omega)
    rwa [show 52 + (n.log2 - 52) = n.log2 by omega]
  have hshift : 2 ≤ 2 ^ (k + 1) := by
    rw [Nat.pow_succ]
    have := Nat.two_pow_pos k
    omega
  rw [roundNat, if_neg (by omega)]
  simp only [hk]
  calc 2 ^ 53 = 2 ^ 52 * 2 := rfl
    _ ≤ n / 2 ^ (k + 1) * 2 ^ (k + 1) := Nat.mul_le_mul hq hshift
    _ ≤ _ := by
      apply Nat.mul_le_mul_right
      split_ifs <;> omega

theorem round_of_natAbs_le {n : Int} (h : n.natAbs ≤ 2 ^ 53) : round n = n := by
  rw [round, roundNat_of_le h]
  exact Int.sign_mul_natAbs n

theorem le_round {n : Int} (h : 2 ^ 53 ≤ n) : 2 ^ 53 ≤ round n := by
  have hnat := le_roundNat (n := n.natAbs) (by omega)
  rw [round, Int.sign_eq_one_of_pos (by omega), one_mul]
  omega

theorem add_lt_iff {a b now : Int} (ha : Safe a) (hb : 0 ≤ b) (hnow : Safe now) :
    add a b < now ↔ a + b < now := by
  simp only [Safe, maxSafeInteger] at ha hnow
  by_cases hexact : (a + b).natAbs ≤ 2 ^ 53
  · rw [add, round_of_natAbs_le hexact]
  · have hge := le_round (n := a + b) (by omega)
    rw [add]
    omega

end Lib.Double
