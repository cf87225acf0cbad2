import Mathlib.Data.Finset.Card
import Mathlib.Tactic

/-!
# Counting the calls at a stage

Of any number of calls finitely many satisfy a test (`Counts`), and when one call moves on the count
changes by that call.
-/

namespace Lib.Tally

variable {τ : Type*} {p q : τ → Bool} {n m : Nat}

/-- Exactly `n` calls satisfy the test. -/
def Counts (p : τ → Bool) (n : Nat) : Prop := ∃ H : Finset τ, (∀ t, t ∈ H ↔ p t = true) ∧ H.card = n

theorem Counts.none (h : ∀ t, p t = false) : Counts p 0 :=
  ⟨∅, fun t => by simp [h t], rfl⟩

theorem Counts.eq_zero (hp : Counts p n) (h : ∀ t, p t = false) : n = 0 := by
  obtain ⟨H, hH, rfl⟩ := hp
  refine Finset.card_eq_zero.2 (Finset.eq_empty_of_forall_notMem fun t ht => ?_)
  rw [hH, h t] at ht
  cases ht

theorem Counts.pos (hp : Counts p n) {t : τ} (h : p t = true) : 0 < n := by
  obtain ⟨H, hH, rfl⟩ := hp
  exact Finset.card_pos.2 ⟨t, (hH t).2 h⟩

/-- **One call moves on.** -/
theorem Counts.update [DecidableEq τ] (hp : Counts p n) (c : τ) (hother : ∀ t, t ≠ c → q t = p t)
    (hcount : m + (p c).toNat = n + (q c).toNat) : Counts q m := by
  obtain ⟨H, hH, rfl⟩ := hp
  have hmem : ∀ t, t ≠ c → (t ∈ H ↔ q t = true) := fun t ht => by rw [hH, hother t ht]
  have hc := hH c
  cases hqc : q c with
  | false =>
    refine ⟨H.erase c, fun t => ?_, ?_⟩
    · by_cases ht : t = c
      · simp [ht, hqc]
      · simp [ht, hmem t ht]
    · cases hpc : p c with
      | false =>
        rw [hqc, hpc] at hcount
        have hnot : c ∉ H := by rw [hc, hpc]; simp
        rw [Finset.erase_eq_of_notMem hnot]
        exact hcount.symm
      | true =>
        rw [hqc, hpc] at hcount
        have hmemc : c ∈ H := hc.2 hpc
        have hpos := Finset.card_pos.2 ⟨c, hmemc⟩
        rw [Finset.card_erase_of_mem hmemc]
        simp only [Bool.toNat_true, Bool.toNat_false] at hcount
        omega
  | true =>
    refine ⟨insert c H, fun t => ?_, ?_⟩
    · by_cases ht : t = c
      · simp [ht, hqc]
      · simp [ht, hmem t ht]
    · cases hpc : p c with
      | false =>
        rw [hqc, hpc] at hcount
        have hnot : c ∉ H := by rw [hc, hpc]; simp
        rw [Finset.card_insert_of_notMem hnot]
        simp only [Bool.toNat_true, Bool.toNat_false] at hcount
        omega
      | true =>
        rw [hqc, hpc] at hcount
        rw [Finset.insert_eq_of_mem (hc.2 hpc)]
        simp only [Bool.toNat_true] at hcount
        omega

theorem Counts.toNat_le (hp : Counts p n) (t : τ) : (p t).toNat ≤ n := by
  cases h : p t with
  | false => exact Nat.zero_le _
  | true => exact hp.pos h

/-- One call moves on, and the others are counted again. -/
theorem Counts.exists_update [DecidableEq τ] (hp : Counts p n) (c : τ)
    (hother : ∀ t, t ≠ c → q t = p t) :
    ∃ m, Counts q m ∧ m + (p c).toNat = n + (q c).toNat := by
  have hle := hp.toNat_le c
  have hcount : n + (q c).toNat - (p c).toNat + (p c).toNat = n + (q c).toNat := by omega
  exact ⟨_, hp.update c hother hcount, hcount⟩

end Lib.Tally
