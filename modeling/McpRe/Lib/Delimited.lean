import Mathlib.Tactic

/-!
# Self-delimiting encodings

An encoding delimits the members of a set when none of their encodings starts another: what follows
one in a longer list is determined. Fixed lengths delimit, length prefixes delimit, and what is
delimited can be put in sequence, so that the injectivity of a whole record follows its layout.
-/

namespace Lib

section

variable {α β γ δ : Type*}

/-- The members of the set, and what follows them, are read off the text. -/
def Delimits (enc : α → List β) (s : Set α) : Prop :=
  ∀ a ∈ s, ∀ b ∈ s, ∀ r r', enc a ++ r = enc b ++ r' → a = b ∧ r = r'

namespace Delimits

variable {enc : α → List β} {s : Set α}

theorem of_length (hinj : Set.InjOn enc s) {n : Nat} (hlen : ∀ a ∈ s, (enc a).length = n) :
    Delimits enc s := by
  intro a ha b hb r r' heq
  obtain ⟨henc, hrest⟩ := List.append_inj heq ((hlen a ha).trans (hlen b hb).symm)
  exact ⟨hinj ha hb henc, hrest⟩

theorem append (h : Delimits enc s) {enc' : γ → List β} {t : Set γ} (h' : Delimits enc' t) :
    Delimits (fun p : α × γ => enc p.1 ++ enc' p.2) (s ×ˢ t) := by
  rintro ⟨a, c⟩ ⟨ha, hc⟩ ⟨b, d⟩ ⟨hb, hd⟩ r r' heq
  dsimp only at heq
  rw [List.append_assoc, List.append_assoc] at heq
  obtain ⟨rfl, hrest⟩ := h a ha b hb _ _ heq
  obtain ⟨rfl, htail⟩ := h' c hc d hd _ _ hrest
  exact ⟨rfl, htail⟩

theorem comap (h : Delimits enc s) {φ : δ → α} (hφ : Function.Injective φ) {enc' : δ → List β}
    {t : Set δ} (henc : ∀ d, enc' d = enc (φ d)) (hmaps : ∀ d ∈ t, φ d ∈ s) : Delimits enc' t := by
  intro a ha b hb r r' heq
  rw [henc, henc] at heq
  obtain ⟨hab, hrest⟩ := h _ (hmaps a ha) _ (hmaps b hb) _ _ heq
  exact ⟨hφ hab, hrest⟩

/-- A text behind its length. -/
theorem lengthPrefixed {count : Nat → List β} {n : Set Nat} (h : Delimits count n) :
    Delimits (fun text : List β => count text.length ++ text) {text | text.length ∈ n} := by
  intro a ha b hb r r' heq
  dsimp only at heq
  rw [List.append_assoc, List.append_assoc] at heq
  obtain ⟨hlength, hrest⟩ := h _ ha _ hb _ _ heq
  exact List.append_inj hrest hlength

/-- As many members, one after another. -/
theorem flatMap_inj (h : Delimits enc s) {as bs : List α} (has : ∀ a ∈ as, a ∈ s)
    (hbs : ∀ b ∈ bs, b ∈ s) (hlen : as.length = bs.length) {r r' : List β}
    (heq : as.flatMap enc ++ r = bs.flatMap enc ++ r') : as = bs ∧ r = r' := by
  induction as generalizing bs with
  | nil =>
    obtain rfl : bs = [] := List.length_eq_zero_iff.1 hlen.symm
    exact ⟨rfl, heq⟩
  | cons a as ih =>
    cases bs with
    | nil => cases hlen
    | cons b bs =>
      rw [List.flatMap_cons, List.flatMap_cons, List.append_assoc, List.append_assoc] at heq
      obtain ⟨rfl, hrest⟩ :=
        h a (has a List.mem_cons_self) b (hbs b List.mem_cons_self) _ _ heq
      obtain ⟨rfl, htail⟩ := ih (fun c hc => has c (List.mem_cons_of_mem _ hc))
        (fun c hc => hbs c (List.mem_cons_of_mem _ hc)) (Nat.succ.inj hlen) hrest
      exact ⟨rfl, htail⟩

/-- Members that take up room need no count in front of them. -/
theorem flatMap_injOn (h : Delimits enc s) (hne : ∀ a ∈ s, enc a ≠ []) :
    Set.InjOn (fun as : List α => as.flatMap enc) {as | ∀ a ∈ as, a ∈ s} := by
  intro as has bs hbs heq
  dsimp only at heq
  induction as generalizing bs with
  | nil =>
    cases bs with
    | nil => rfl
    | cons b bs =>
      rw [List.flatMap_nil, List.flatMap_cons] at heq
      exact absurd (List.append_eq_nil_iff.1 heq.symm).1 (hne b (hbs b List.mem_cons_self))
  | cons a as ih =>
    cases bs with
    | nil =>
      rw [List.flatMap_nil, List.flatMap_cons] at heq
      exact absurd (List.append_eq_nil_iff.1 heq).1 (hne a (has a List.mem_cons_self))
    | cons b bs =>
      rw [List.flatMap_cons, List.flatMap_cons] at heq
      obtain ⟨rfl, hrest⟩ :=
        h a (has a List.mem_cons_self) b (hbs b List.mem_cons_self) _ _ heq
      rw [ih (fun c hc => has c (List.mem_cons_of_mem _ hc))
        (fun c hc => hbs c (List.mem_cons_of_mem _ hc)) hrest]

/-- A list behind the number of its members. -/
theorem counted (h : Delimits enc s) {count : Nat → List β} {n : Set Nat}
    (hcount : Delimits count n) :
    Delimits (fun as : List α => count as.length ++ as.flatMap enc)
      {as | as.length ∈ n ∧ ∀ a ∈ as, a ∈ s} := by
  rintro as ⟨hlen, has⟩ bs ⟨hlen', hbs⟩ r r' heq
  dsimp only at heq
  rw [List.append_assoc, List.append_assoc] at heq
  obtain ⟨hlength, hrest⟩ := hcount _ hlen _ hlen' _ _ heq
  exact h.flatMap_inj has hbs hlength hrest

end Delimits

end

end Lib
