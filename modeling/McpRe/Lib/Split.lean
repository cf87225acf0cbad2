import Mathlib.Tactic
import McpRe.Lib.Text

/-!
# Splitting at the first and at the last occurrence

`str::split_once` at a text and `str::rsplit_once` at a character, by what they find: the parts around
the first and around the last occurrence.
-/

namespace Lib.Text

theorem containsText_eq_false_iff {sub s : Str} :
    containsText sub s = false ↔ ∀ a b, s ≠ a ++ sub ++ b := by
  constructor
  · rintro h a b rfl
    rw [containsText_append] at h
    cases h
  · intro h
    rw [← Bool.not_eq_true]
    intro hcontains
    obtain ⟨a, b, heq⟩ := exists_eq_append_of_containsText hcontains
    exact h a b heq

/-! ## The first occurrence of a text -/

/-- A text whose first character is not met again inside it does not overlap itself. -/
theorem stripPrefix_eq_none_of_plain {c : Char} {cs : Str} (hc : c ∉ cs) {a : Str} (ha : a ≠ [])
    (hplain : containsText (c :: cs) a = false) (b : Str) :
    stripPrefix (c :: cs) (a ++ c :: cs ++ b) = none := by
  rw [Option.eq_none_iff_forall_ne_some]
  intro t ht
  rw [stripPrefix_eq_some, List.append_assoc, List.append_eq_append_iff] at ht
  rcases ht with ⟨l, hsep, htail⟩ | ⟨l, hsep, _⟩
  · -- the text begins in `a` and ends behind it: its first character is met a second time
    cases a with
    | nil => exact ha rfl
    | cons x a =>
      obtain ⟨rfl, rfl⟩ := List.cons.inj (hsep.trans (List.cons_append ..))
      cases l with
      | nil =>
        rw [List.append_nil] at hplain
        exact containsText_eq_false_iff.1 hplain [] [] (by simp)
      | cons y l =>
        have hy : c = y := (List.cons.inj htail).1
        exact hc (by simp [hy])
  · exact containsText_eq_false_iff.1 hplain [] l (by rw [List.nil_append, hsep])

theorem splitOnceAt_append {c : Char} {cs : Str} (hc : c ∉ cs) {a : Str}
    (hplain : containsText (c :: cs) a = false) (b : Str) :
    splitOnceAt (c :: cs) (a ++ c :: cs ++ b) = some (a, b) := by
  induction a with
  | nil =>
    have hstrip : stripPrefix (c :: cs) (c :: (cs ++ b)) = some b := stripPrefix_eq_some.2 rfl
    rw [List.nil_append, List.cons_append, splitOnceAt, hstrip]
  | cons x a ih =>
    have hnone := stripPrefix_eq_none_of_plain hc (List.cons_ne_nil x a) hplain b
    have htail : containsText (c :: cs) a = false := by
      rw [containsText_eq_false_iff] at hplain ⊢
      rintro l r rfl
      exact hplain (x :: l) r rfl
    rw [List.cons_append, List.cons_append] at hnone ⊢
    rw [splitOnceAt, hnone, ih htail]
    rfl

/-- **What `split_once` finds**: the parts around the first occurrence. -/
theorem splitOnceAt_eq_some {c : Char} {cs : Str} (hc : c ∉ cs) {s a b : Str} :
    splitOnceAt (c :: cs) s = some (a, b) ↔
      s = a ++ c :: cs ++ b ∧ containsText (c :: cs) a = false := by
  constructor
  · intro h
    induction s generalizing a with
    | nil => cases h
    | cons x s ih =>
      rw [splitOnceAt] at h
      cases hstrip : stripPrefix (c :: cs) (x :: s) with
      | some t =>
        rw [hstrip] at h
        cases h
        exact ⟨stripPrefix_eq_some.1 hstrip, rfl⟩
      | none =>
        rw [hstrip] at h
        obtain ⟨p, hp, heq⟩ := Option.map_eq_some_iff.1 h
        cases heq
        obtain ⟨rfl, hplain⟩ := ih hp
        refine ⟨rfl, ?_⟩
        rw [containsText_eq_false_iff] at hplain ⊢
        intro l r heq
        cases l with
        | nil =>
          -- an occurrence at the front would have been stripped
          rw [List.nil_append] at heq
          have hfront : stripPrefix (c :: cs) (x :: (p.1 ++ c :: cs ++ p.2))
              = some (r ++ c :: cs ++ p.2) := by
            rw [stripPrefix_eq_some, ← List.append_assoc, ← List.append_assoc, ← heq]
            rfl
          rw [hfront] at hstrip
          cases hstrip
        | cons y l => exact hplain l r (List.cons.inj heq).2
  · rintro ⟨rfl, hplain⟩
    exact splitOnceAt_append hc hplain b

theorem splitOnceAt_eq_none {sep s : Str} : splitOnceAt sep s = none ↔ ∀ a b, s ≠ a ++ sep ++ b := by
  rw [← containsText_eq_false_iff, containsText, Option.isSome_eq_false_iff, Option.isNone_iff_eq_none]

/-! ## A character -/

theorem splitOnce_eq_none {sep : Char} {s : Str} : splitOnce sep s = none ↔ sep ∉ s := by
  induction s with
  | nil => simp [splitOnce]
  | cons c s ih =>
    by_cases hc : c = sep
    · simp [splitOnce, hc]
    · simp [splitOnce, hc, ih, eq_comm (a := sep)]

/-- What is before the first occurrence, and what is behind it; with none, the whole text. -/
def splitOff (sep : Char) (s : Str) : Str × Option Str :=
  match splitOnce sep s with
  | some (before, after) => (before, some after)
  | none => (s, none)

/-- An optional text behind its mark. -/
def behind (mark : Char) : Option Str → Str
  | none => []
  | some text => mark :: text

theorem splitOff_behind {mark : Char} {before : Str} (h : mark ∉ before) (after : Option Str) :
    splitOff mark (before ++ behind mark after) = (before, after) := by
  unfold splitOff
  cases after with
  | none => rw [behind, List.append_nil, splitOnce_eq_none.2 h]
  | some text => rw [behind, splitOnce_append h]

theorem splitOff_spec (mark : Char) (s : Str) :
    s = (splitOff mark s).1 ++ behind mark (splitOff mark s).2 ∧ mark ∉ (splitOff mark s).1 := by
  unfold splitOff
  cases hsplit : splitOnce mark s with
  | none => exact ⟨(List.append_nil s).symm, splitOnce_eq_none.1 hsplit⟩
  | some parts => exact splitOnce_eq_some.1 hsplit

/-- `str::rsplit_once` at a character. -/
def rsplitOnce (c : Char) (s : Str) : Option (Str × Str) :=
  (splitOnce c s.reverse).map fun (last, init) => (init.reverse, last.reverse)

theorem rsplitOnce_eq_some {c : Char} {s a b : Str} :
    rsplitOnce c s = some (a, b) ↔ s = a ++ c :: b ∧ c ∉ b := by
  simp only [rsplitOnce, Option.map_eq_some_iff, Prod.exists, splitOnce_eq_some, Prod.mk.injEq]
  constructor
  · rintro ⟨last, init, ⟨hs, hlast⟩, rfl, rfl⟩
    refine ⟨?_, by simpa using hlast⟩
    rw [← List.reverse_inj, hs]
    simp
  · rintro ⟨rfl, hb⟩
    exact ⟨b.reverse, a.reverse, ⟨by simp, by simpa using hb⟩, by simp, by simp⟩

theorem rsplitOnce_append {c : Char} {a b : Str} (h : c ∉ b) :
    rsplitOnce c (a ++ c :: b) = some (a, b) :=
  rsplitOnce_eq_some.2 ⟨rfl, h⟩

theorem rsplitOnce_eq_none {c : Char} {s : Str} : rsplitOnce c s = none ↔ c ∉ s := by
  rw [rsplitOnce, Option.map_eq_none_iff, splitOnce_eq_none, List.mem_reverse]

end Lib.Text
