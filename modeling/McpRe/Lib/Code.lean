import Mathlib.Data.List.Basic
import Mathlib.Data.List.Count
import Mathlib.Data.List.Infix
import Mathlib.Tactic.Common

/-!
# Texts that can be taken apart again

When a list joined from parts gives the parts back: parts around a separator, and symbols written
one after the other in a code.
-/

namespace Lib.Code

section

variable {α : Type*} [DecidableEq α] {c : α} {a a' b b' : List α}

theorem append_cons_inj_of_count (h : a ++ c :: b = a' ++ c :: b') (hcount : a.count c = a'.count c) :
    a = a' ∧ b = b' := by
  induction a generalizing a' with
  | nil =>
    cases a' with
    | nil => exact ⟨rfl, (List.cons.inj h).2⟩
    | cons x a' =>
      obtain ⟨rfl, _⟩ := List.cons.inj h
      simp at hcount
  | cons x a ih =>
    cases a' with
    | nil =>
      obtain ⟨rfl, _⟩ := List.cons.inj h
      simp at hcount
    | cons x' a' =>
      obtain ⟨rfl, hrest⟩ := List.cons.inj h
      rw [List.count_cons, List.count_cons] at hcount
      obtain ⟨rfl, rfl⟩ := ih hrest (Nat.add_right_cancel hcount)
      exact ⟨rfl, rfl⟩

theorem append_cons_inj_left (h : a ++ c :: b = a' ++ c :: b') (ha : c ∉ a) (ha' : c ∉ a') :
    a = a' ∧ b = b' :=
  append_cons_inj_of_count h (by rw [List.count_eq_zero.2 ha, List.count_eq_zero.2 ha'])

theorem append_cons_inj_right (h : a ++ c :: b = a' ++ c :: b') (hb : c ∉ b) (hb' : c ∉ b') :
    a = a' ∧ b = b' := by
  apply append_cons_inj_of_count h
  have hcount := congrArg (List.count c) h
  rw [List.count_append, List.count_append, List.count_cons_self, List.count_cons_self,
    List.count_eq_zero.2 hb, List.count_eq_zero.2 hb'] at hcount
  exact Nat.add_right_cancel hcount

end

/-- A code in which no word starts another one can be read back. -/
theorem flatMap_injective {α β : Type*} {f : α → List β} (hne : ∀ a, f a ≠ [])
    (hword : ∀ a b, f a <+: f b → a = b) : Function.Injective (List.flatMap f) := by
  intro xs
  induction xs with
  | nil =>
    intro ys h
    cases ys with
    | nil => rfl
    | cons y ys =>
      obtain ⟨hy, _⟩ := List.append_eq_nil_iff.1 h.symm
      exact absurd hy (hne y)
  | cons x xs ih =>
    intro ys h
    cases ys with
    | nil =>
      obtain ⟨hx, _⟩ := List.append_eq_nil_iff.1 h
      exact absurd hx (hne x)
    | cons y ys =>
      have hxy : f x ++ xs.flatMap f = f y ++ ys.flatMap f := h
      obtain rfl : x = y := by
        have hx : f x <+: f y ++ ys.flatMap f := ⟨_, hxy⟩
        rcases List.prefix_or_prefix_of_prefix hx (List.prefix_append ..) with hle | hle
        · exact hword x y hle
        · exact (hword y x hle).symm
      rw [ih (List.append_cancel_left hxy)]

/-! ## Decimal numbers -/

theorem toDigits_injective : Function.Injective (Nat.toDigits 10) := by
  intro m n h
  rw [← Nat.ofDigitChars_ten_toDigits (n := m), h, Nat.ofDigitChars_ten_toDigits]

theorem notMem_toDigits {c : Char} (hc : c.isDigit = false) (n : Nat) : c ∉ Nat.toDigits 10 n := by
  intro hmem
  rw [Nat.isDigit_of_mem_toDigits (by decide) (by decide) hmem] at hc
  cases hc

end Lib.Code
