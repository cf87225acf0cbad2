import Mathlib.Tactic.Common
import Mathlib.Data.List.Nodup

/-!
# Linked chains

A list whose elements each point back, by a handle, at the element before them. Where a handle fixes
what its element points back at, as a hash does, such a list cannot be shortened or permuted:

* `Linked.index_unique`: no handle occurs at two positions;
* `Linked.prefix_of_subset`: a linked list of elements of another one is a prefix of it;
* `Linked.eq_of_subset`: and all of it, when the last element of a list can be told from the others.
-/

namespace Lib.Chain

variable {α H : Type}

section

variable (handle : α → H) (back : α → Option H)

def LinkedFrom : Option H → List α → Prop
  | _, [] => True
  | p, x :: xs => back x = p ∧ LinkedFrom (some (handle x)) xs

/-- A linked list whose first element points at nothing. -/
def Linked (l : List α) : Prop := LinkedFrom handle back none l

/-- The last element satisfies `last`, every other one `mid`. -/
def Shaped (mid last : α → Prop) : List α → Prop
  | [] => True
  | [x] => last x
  | x :: y :: xs => mid x ∧ Shaped mid last (y :: xs)

end

variable {handle : α → H} {back : α → Option H} {l l' : List α}

theorem LinkedFrom.back_succ {p : Option H} (h : LinkedFrom handle back p l) {i : Nat} {x y : α}
    (hy : l[i]? = some y) (hx : l[i + 1]? = some x) : back x = some (handle y) := by
  induction l generalizing p i with
  | nil => cases hx
  | cons z zs ih =>
    cases i with
    | zero =>
      obtain rfl : z = y := by simpa using hy
      cases zs with
      | nil => cases hx
      | cons w ws =>
        obtain rfl : w = x := by simpa using hx
        exact h.2.1
    | succ i => exact ih h.2 hy hx

theorem Linked.back_zero (h : Linked handle back l) {x : α} (hx : l[0]? = some x) :
    back x = none := by
  cases l with
  | nil => cases hx
  | cons y ys =>
    obtain rfl : y = x := by simpa using hx
    exact h.1

theorem Linked.back_eq (h : Linked handle back l) {i : Nat} {x : α} (hx : l[i]? = some x) :
    (i = 0 ∧ back x = none) ∨ ∃ j y, i = j + 1 ∧ l[j]? = some y ∧ back x = some (handle y) := by
  cases i with
  | zero => exact .inl ⟨rfl, h.back_zero hx⟩
  | succ j =>
    have hlt : j + 1 < l.length := (List.getElem?_eq_some_iff.1 hx).1
    have hy : l[j]? = some l[j] := List.getElem?_eq_getElem (by omega)
    exact .inr ⟨j, _, rfl, hy, h.back_succ hy hx⟩

/-- The handles of the list fix what their elements point back at. -/
def Fixed (handle : α → H) (back : α → Option H) (l : List α) : Prop :=
  ∀ x ∈ l, ∀ y ∈ l, handle x = handle y → back x = back y

/-- No handle occurs at two positions: equal handles have equal handles before them, down to the
first position, which has none. -/
theorem Linked.index_unique (h : Linked handle back l) (hfix : Fixed handle back l) {i j : Nat}
    {x y : α} (hx : l[i]? = some x) (hy : l[j]? = some y) (heq : handle x = handle y) : i = j := by
  induction i generalizing j x y with
  | zero =>
    have hback := hfix x (List.mem_of_getElem? hx) y (List.mem_of_getElem? hy) heq
    rw [h.back_zero hx] at hback
    rcases h.back_eq hy with ⟨rfl, -⟩ | ⟨k, z, rfl, -, hz⟩
    · rfl
    · rw [hz] at hback
      cases hback
  | succ i ih =>
    have hback := hfix x (List.mem_of_getElem? hx) y (List.mem_of_getElem? hy) heq
    rcases h.back_eq hx with ⟨hzero, -⟩ | ⟨i', x', hi, hx', hbx⟩
    · cases hzero
    obtain rfl : i = i' := by omega
    rcases h.back_eq hy with ⟨rfl, hnone⟩ | ⟨j', y', rfl, hy', hby⟩
    · rw [hbx, hnone] at hback
      cases hback
    · rw [hbx, hby] at hback
      rw [ih hx' hy' (Option.some.inj hback)]

theorem Linked.nodup (h : Linked handle back l) (hfix : Fixed handle back l) : l.Nodup := by
  rw [List.nodup_iff_injective_get]
  intro i j hij
  have hi : l[i.val]? = some (l.get i) := List.getElem?_eq_getElem i.isLt
  have hj : l[j.val]? = some (l.get j) := List.getElem?_eq_getElem j.isLt
  exact Fin.ext (h.index_unique hfix hi hj (congrArg handle hij))

theorem Linked.getElem?_of_subset (h : Linked handle back l) (hfix : Fixed handle back l)
    (h' : Linked handle back l') (hsub : l' ⊆ l) {i : Nat} {x : α} (hx : l'[i]? = some x) :
    l[i]? = some x := by
  induction i generalizing x with
  | zero =>
    obtain ⟨j, hj⟩ := List.mem_iff_getElem?.1 (hsub (List.mem_of_getElem? hx))
    rcases h.back_eq hj with ⟨rfl, -⟩ | ⟨k, z, rfl, -, hz⟩
    · exact hj
    · rw [h'.back_zero hx] at hz
      cases hz
  | succ i ih =>
    obtain ⟨j, hj⟩ := List.mem_iff_getElem?.1 (hsub (List.mem_of_getElem? hx))
    rcases h'.back_eq hx with ⟨hzero, -⟩ | ⟨i', y, hi, hy, hby⟩
    · cases hzero
    obtain rfl : i = i' := by omega
    -- `x` points back at `y`, which is at `i` in both lists, so `x` comes after it in `l` too
    rcases h.back_eq hj with ⟨rfl, hnone⟩ | ⟨k, z, rfl, hz, hbz⟩
    · rw [hby] at hnone
      cases hnone
    · rw [hby] at hbz
      rw [h.index_unique hfix (ih hy) hz (Option.some.inj hbz)]
      exact hj

theorem Linked.prefix_of_subset (h : Linked handle back l) (hfix : Fixed handle back l)
    (h' : Linked handle back l') (hsub : l' ⊆ l) : l' <+: l := by
  rw [List.prefix_iff_getElem?]
  intro i hi
  exact h.getElem?_of_subset hfix h' hsub (List.getElem?_eq_getElem hi)

theorem Shaped.eq_of_prefix {mid last : α → Prop} (hne : ∀ x, mid x → ¬last x)
    (h : Shaped mid last l) (h' : Shaped mid last l') (hnil : l' ≠ []) (hpre : l' <+: l) :
    l' = l := by
  induction l' generalizing l with
  | nil => exact absurd rfl hnil
  | cons x xs ih =>
    cases l with
    | nil => cases List.prefix_nil.1 hpre
    | cons y ys =>
      obtain ⟨rfl, hrest⟩ := List.cons_prefix_cons.1 hpre
      cases xs with
      | nil =>
        cases ys with
        | nil => rfl
        | cons z zs => exact absurd h' (hne x h.1)
      | cons w ws =>
        cases ys with
        | nil => cases List.prefix_nil.1 hrest
        | cons z zs => rw [ih h.2 h'.2 (List.cons_ne_nil w ws) hrest]

/-- **A linked list that ends only at its last element has no other such list of its elements.** -/
theorem Linked.eq_of_subset {mid last : α → Prop} (hne : ∀ x, mid x → ¬last x)
    (h : Linked handle back l) (hfix : Fixed handle back l) (hshape : Shaped mid last l)
    (h' : Linked handle back l') (hshape' : Shaped mid last l') (hnil : l' ≠ []) (hsub : l' ⊆ l) :
    l' = l :=
  hshape.eq_of_prefix hne hshape' hnil (h.prefix_of_subset hfix h' hsub)

end Lib.Chain
