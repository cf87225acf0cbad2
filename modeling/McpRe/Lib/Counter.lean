import Mathlib.Tactic

/-!
# Saturating and checked counters

Code that counts is written over an arithmetic in a monad. On the saturating one it is the code; on
the checked one it stops where the other saturates. `Agrees` relates the two runs: a checked run
that ends shows that nothing saturated and that the saturating run ends the same.
-/

namespace Lib.Counter

/-- `usize::MAX`, which is `u64::MAX` too. -/
def usizeMax : Nat := 2 ^ 64 - 1

/-- Addition and subtraction of counters. -/
structure Arith (m : Type → Type) where
  add : Nat → Nat → m Nat
  sub : Nat → Nat → m Nat

/-- `saturating_add` and `saturating_sub`. -/
def saturating : Arith Id where
  add a b := pure (min (a + b) usizeMax)
  sub a b := pure (a - b)

/-- `checked_add` and `checked_sub`. -/
def checked : Arith Option where
  add a b := if a + b ≤ usizeMax then some (a + b) else none
  sub a b := if b ≤ a then some (a - b) else none

theorem checked_add {a b : Nat} (h : a + b ≤ usizeMax) : checked.add a b = some (a + b) := if_pos h

theorem checked_sub {a b : Nat} (h : b ≤ a) : checked.sub a b = some (a - b) := if_pos h

/-- Where the checked run ends, the saturating run ends with the same. -/
def Agrees {α : Type} (x : Option α) (y : Id α) : Prop := ∀ v, x = some v → Id.run y = v

namespace Agrees

variable {α β : Type}

theorem pure (v : α) : Agrees (some v) (Pure.pure v) := fun _ h => Option.some.inj h

theorem bind {x : Option α} {y : Id α} {f : α → Option β} {g : α → Id β} (h : Agrees x y)
    (hf : ∀ v, Agrees (f v) (g v)) : Agrees (x >>= f) (y >>= g) := by
  intro w hw
  obtain ⟨v, hv, hfv⟩ := Option.bind_eq_some_iff.1 hw
  have hy : Id.run y = v := h v hv
  subst hy
  exact hf _ w hfv

theorem ite {c : Prop} [Decidable c] {x x' : Option α} {y y' : Id α} (h : Agrees x y)
    (h' : Agrees x' y') : Agrees (if c then x else x') (if c then y else y') := by
  by_cases hc : c
  · rwa [if_pos hc, if_pos hc]
  · rwa [if_neg hc, if_neg hc]

theorem foldlM {f : β → α → Option β} {g : β → α → Id β} (h : ∀ b a, Agrees (f b a) (g b a))
    (xs : List α) (b : β) : Agrees (xs.foldlM f b) (xs.foldlM g b) := by
  induction xs generalizing b with
  | nil => exact pure b
  | cons a xs ih =>
    rw [List.foldlM_cons, List.foldlM_cons]
    exact bind (h b a) ih

theorem add (a b : Nat) : Agrees (checked.add a b) (saturating.add a b) := by
  intro v hv
  obtain ⟨hle, rfl⟩ : a + b ≤ usizeMax ∧ a + b = v := by simpa [checked] using hv
  exact min_eq_left hle

theorem sub (a b : Nat) : Agrees (checked.sub a b) (saturating.sub a b) := by
  intro v hv
  obtain ⟨_, rfl⟩ : b ≤ a ∧ a - b = v := by simpa [checked] using hv
  rfl

end Agrees

end Lib.Counter
