import Mathlib.Data.Nat.Log
import Mathlib.Tactic

/-!
# Merkle trees of RFC 6962 and the index walk of RFC 9162

Over an arbitrary digest type and node operation: the tree hash of a leaf list (`root`), the audit
path to a leaf (`auditPath`) with the side each sibling stands on (`auditSides`), and the fold of a
path (`climb`).

* `walkSides_eq_auditSides`: the sides that the index walk of RFC 9162 computes from a position and
  a last index are the sides of the audit path;
* `climb_auditPath`: the audit path folds its leaf to the root;
* `eq_auditPath_of_climb`: a path that folds a candidate to the root is the audit path of the leaf
  it stands for, when the node operation confuses no two of the pairs involved;
* `eq_of_root_eq`: under the like condition the root determines the leaves.
-/

namespace Lib.Merkle

/-! ## The split point -/

/-- Half the least power of two at or above `n`: for `2 ≤ n`, the largest power of two below it. -/
def splitPoint (n : Nat) : Nat := 2 ^ Nat.clog 2 n / 2

theorem exists_splitPoint_eq_pow {n : Nat} (h : 2 ≤ n) :
    ∃ m, splitPoint n = 2 ^ m ∧ 2 ^ m < n ∧ n ≤ 2 ^ (m + 1) := by
  have hpos : 0 < Nat.clog 2 n := Nat.clog_pos (by decide) (by omega)
  obtain ⟨m, hm⟩ : ∃ m, Nat.clog 2 n = m + 1 := ⟨Nat.clog 2 n - 1, by omega⟩
  have hlt := Nat.pow_pred_clog_lt_self (b := 2) (by decide) (x := n) (by omega)
  have hle := Nat.le_pow_clog (b := 2) (by decide) n
  rw [hm] at hlt hle
  refine ⟨m, ?_, by simpa using hlt, hle⟩
  rw [splitPoint, hm, Nat.pow_succ, Nat.mul_div_cancel _ (by decide)]

theorem splitPoint_pos {n : Nat} (h : 2 ≤ n) : 0 < splitPoint n := by
  obtain ⟨m, hm, -, -⟩ := exists_splitPoint_eq_pow h
  rw [hm]
  exact Nat.pow_pos (by decide)

theorem splitPoint_lt {n : Nat} (h : 2 ≤ n) : splitPoint n < n := by
  obtain ⟨m, hm, hlt, -⟩ := exists_splitPoint_eq_pow h
  rwa [hm]

/-! ## Paths -/

/-- Where a sibling stands. -/
inductive Side where
  | left
  | right
  deriving DecidableEq, Repr

section

variable {D : Type*} (node : D → D → D)

/-- The pair that one step of a path combines. -/
def pairOf (r : D) : Side × D → D × D
  | (.left, s) => (s, r)
  | (.right, s) => (r, s)

/-- Fold a path of siblings with their sides. -/
def climb (r : D) : List (Side × D) → D
  | [] => r
  | step :: steps => climb (node (pairOf r step).1 (pairOf r step).2) steps

/-- The pairs that a fold combines. -/
def climbPairs (r : D) : List (Side × D) → List (D × D)
  | [] => []
  | step :: steps =>
    pairOf r step :: climbPairs (node (pairOf r step).1 (pairOf r step).2) steps

theorem climb_append (r : D) (xs ys : List (Side × D)) :
    climb node r (xs ++ ys) = climb node (climb node r xs) ys := by
  induction xs generalizing r with
  | nil => rfl
  | cons x xs ih => exact ih _

theorem climbPairs_append (r : D) (xs ys : List (Side × D)) :
    climbPairs node r (xs ++ ys) = climbPairs node r xs ++ climbPairs node (climb node r xs) ys := by
  induction xs generalizing r with
  | nil => rfl
  | cons x xs ih => simp [climbPairs, climb, ih]

/-! ## The tree -/

variable (empty : D)

/-- The tree hash of a leaf list. -/
def root (leaves : List D) : D :=
  match leaves with
  | [] => empty
  | [x] => x
  | x :: y :: rest =>
    let k := splitPoint (x :: y :: rest).length
    node (root ((x :: y :: rest).take k)) (root ((x :: y :: rest).drop k))
termination_by leaves.length
decreasing_by
  · have := splitPoint_lt (n := rest.length + 1 + 1) (by omega)
    simp only [List.length_take, List.length_cons]
    omega
  · have := splitPoint_pos (n := rest.length + 1 + 1) (by omega)
    simp only [List.length_drop, List.length_cons]
    omega

/-- The audit path to index `i`, from the leaf up. -/
def auditPath (i : Nat) (leaves : List D) : List D :=
  match leaves with
  | [] => []
  | [_] => []
  | x :: y :: rest =>
    let k := splitPoint (x :: y :: rest).length
    if i < k then
      auditPath i ((x :: y :: rest).take k) ++ [root node empty ((x :: y :: rest).drop k)]
    else auditPath (i - k) ((x :: y :: rest).drop k) ++ [root node empty ((x :: y :: rest).take k)]
termination_by leaves.length
decreasing_by
  · have := splitPoint_lt (n := rest.length + 1 + 1) (by omega)
    simp only [List.length_take, List.length_cons]
    omega
  · have := splitPoint_pos (n := rest.length + 1 + 1) (by omega)
    simp only [List.length_drop, List.length_cons]
    omega

/-- The pairs that the tree hash combines. -/
def rootPairs (leaves : List D) : List (D × D) :=
  match leaves with
  | [] => []
  | [_] => []
  | x :: y :: rest =>
    let k := splitPoint (x :: y :: rest).length
    (root node empty ((x :: y :: rest).take k), root node empty ((x :: y :: rest).drop k))
      :: (rootPairs ((x :: y :: rest).take k) ++ rootPairs ((x :: y :: rest).drop k))
termination_by leaves.length
decreasing_by
  · have := splitPoint_lt (n := rest.length + 1 + 1) (by omega)
    simp only [List.length_take, List.length_cons]
    omega
  · have := splitPoint_pos (n := rest.length + 1 + 1) (by omega)
    simp only [List.length_drop, List.length_cons]
    omega

end

/-- The sides of the audit path to index `i` of `n` leaves. -/
def auditSides (i n : Nat) : List Side :=
  if h : 2 ≤ n then
    if i < splitPoint n then auditSides i (splitPoint n) ++ [Side.right]
    else auditSides (i - splitPoint n) (n - splitPoint n) ++ [Side.left]
  else []
termination_by n
decreasing_by
  · exact splitPoint_lt h
  · have := splitPoint_pos h
    omega

/-! ## The index walk -/

/-- Drop the trailing zeros of the position, shifting the last index along. -/
def strip (f s : Nat) : Nat × Nat :=
  if f ≠ 0 ∧ f % 2 = 0 then strip (f / 2) (s / 2) else (f, s)
termination_by f
decreasing_by omega

theorem strip_snd_le (f s : Nat) : (strip f s).2 ≤ s := by
  induction f, s using strip.induct with
  | case1 f s h ih =>
    rw [strip, if_pos h]
    exact ih.trans (Nat.div_le_self s 2)
  | case2 f s h => rw [strip, if_neg h]

def walkSides (f s : Nat) : List Side :=
  if s = 0 then []
  else if f % 2 = 1 ∨ f = s then
    .left :: walkSides ((strip f s).1 / 2) ((strip f s).2 / 2)
  else .right :: walkSides (f / 2) (s / 2)
termination_by s
decreasing_by
  · have := strip_snd_le f s
    omega
  · omega

theorem walkSides_zero (f : Nat) : walkSides f 0 = [] := by
  rw [walkSides, if_pos rfl]

theorem strip_odd {f : Nat} (h : f % 2 = 1) (s : Nat) : strip f s = (f, s) := by
  rw [strip, if_neg (by omega)]

theorem walkSides_odd {f s : Nat} (hs : s ≠ 0) (h : f % 2 = 1) :
    walkSides f s = .left :: walkSides (f / 2) (s / 2) := by
  rw [walkSides, if_neg hs, if_pos (.inl h), strip_odd h]

theorem walkSides_even {f s : Nat} (hs : s ≠ 0) (h : f % 2 = 0) (hne : f ≠ s) :
    walkSides f s = .right :: walkSides (f / 2) (s / 2) := by
  rw [walkSides, if_neg hs, if_neg (by omega)]

/-- On the right border the walk passes over the levels where the last node has no sibling. -/
theorem walkSides_diag {f : Nat} (h : f % 2 = 0) : walkSides f f = walkSides (f / 2) (f / 2) := by
  rcases Nat.eq_zero_or_pos f with rfl | hpos
  · rfl
  · rw [walkSides, if_neg (by omega), if_pos (.inr rfl), strip, if_pos ⟨by omega, h⟩]
    rw [walkSides.eq_1 (f / 2) (f / 2), if_neg (by omega), if_pos (.inr rfl)]

theorem walkSides_left {m f s : Nat} (hf : f < 2 ^ m) (hlo : 2 ^ m ≤ s) (hhi : s < 2 ^ (m + 1)) :
    walkSides f s = walkSides f (2 ^ m - 1) ++ [Side.right] := by
  induction m generalizing f s with
  | zero =>
    obtain rfl : f = 0 := by omega
    obtain rfl : s = 1 := by omega
    have hlast : 2 ^ 0 - 1 = 0 := rfl
    rw [walkSides_even (by omega) rfl (by omega), hlast, walkSides_zero]
    rfl
  | succ m ih =>
    have hpow : 2 ^ (m + 1) = 2 * 2 ^ m := Nat.pow_succ'
    have hpow' : 2 ^ (m + 1 + 1) = 2 * 2 ^ (m + 1) := Nat.pow_succ'
    have hpos : 0 < 2 ^ m := Nat.pow_pos (by decide)
    have hhalf : (2 ^ (m + 1) - 1) / 2 = 2 ^ m - 1 := by omega
    have hrest : walkSides (f / 2) (s / 2) = walkSides (f / 2) (2 ^ m - 1) ++ [Side.right] :=
      ih (by omega) (by omega) (by omega)
    rcases Nat.mod_two_eq_zero_or_one f with hpar | hpar
    · rw [walkSides_even (by omega) hpar (by omega), walkSides_even (by omega) hpar (by omega),
        hhalf, hrest]
      rfl
    · rw [walkSides_odd (by omega) hpar, walkSides_odd (by omega) hpar, hhalf, hrest]
      rfl

theorem walkSides_right {m f s : Nat} (hfs : f ≤ s) (hs : s < 2 ^ m) :
    walkSides (2 ^ m + f) (2 ^ m + s) = walkSides f s ++ [Side.left] := by
  induction m generalizing f s with
  | zero =>
    obtain rfl : s = 0 := by omega
    obtain rfl : f = 0 := by omega
    have hhalf : (2 ^ 0 + 0) / 2 = 0 := rfl
    rw [walkSides_odd (by omega) rfl, hhalf, walkSides_zero]
    rfl
  | succ m ih =>
    have hpow : 2 ^ (m + 1) = 2 * 2 ^ m := Nat.pow_succ'
    have hpos : 0 < 2 ^ m := Nat.pow_pos (by decide)
    have hf2 : (2 ^ (m + 1) + f) / 2 = 2 ^ m + f / 2 := by omega
    have hs2 : (2 ^ (m + 1) + s) / 2 = 2 ^ m + s / 2 := by omega
    have hrest :
        walkSides (2 ^ m + f / 2) (2 ^ m + s / 2) = walkSides (f / 2) (s / 2) ++ [Side.left] :=
      ih (by omega) (by omega)
    rcases Nat.mod_two_eq_zero_or_one f with hpar | hpar
    · by_cases heq : f = s
      · -- the last position: both walks pass over the level
        subst heq
        rw [walkSides_diag (by omega), hf2, hrest, walkSides_diag hpar]
      · rw [walkSides_even (by omega) (by omega) (by omega), hf2, hs2, hrest,
          walkSides_even (by omega) hpar heq]
        rfl
    · rw [walkSides_odd (by omega) (by omega), hf2, hs2, hrest, walkSides_odd (by omega) hpar]
      rfl

theorem auditSides_of_lt_two {n : Nat} (h : n < 2) (i : Nat) : auditSides i n = [] := by
  rw [auditSides, dif_neg (by omega)]

theorem auditSides_left {i n : Nat} (h : 2 ≤ n) (hi : i < splitPoint n) :
    auditSides i n = auditSides i (splitPoint n) ++ [Side.right] := by
  rw [auditSides, dif_pos h, if_pos hi]

theorem auditSides_right {i n : Nat} (h : 2 ≤ n) (hi : splitPoint n ≤ i) :
    auditSides i n = auditSides (i - splitPoint n) (n - splitPoint n) ++ [Side.left] := by
  rw [auditSides, dif_pos h, if_neg (by omega)]

/-- **The index walk computes the sides of the audit path.** -/
theorem walkSides_eq_auditSides {i n : Nat} (h : i < n) :
    walkSides i (n - 1) = auditSides i n := by
  induction n using Nat.strongRecOn generalizing i with
  | ind n ih =>
    rcases Nat.lt_or_ge n 2 with hn | hn
    · obtain rfl : n = 1 := by omega
      rw [walkSides_zero, auditSides_of_lt_two hn]
    · obtain ⟨m, hk, hlo, hhi⟩ := exists_splitPoint_eq_pow hn
      have hpos := splitPoint_pos hn
      have hlt := splitPoint_lt hn
      rcases Nat.lt_or_ge i (splitPoint n) with hi | hi
      · rw [auditSides_left hn hi, ← ih (splitPoint n) hlt hi, hk]
        exact walkSides_left (by omega) (by omega) (by omega)
      · rw [auditSides_right hn hi, ← ih (n - splitPoint n) (by omega) (by omega)]
        have hpow : 2 ^ (m + 1) = 2 * 2 ^ m := Nat.pow_succ'
        have hsplit := walkSides_right (m := m) (f := i - 2 ^ m) (s := n - 2 ^ m - 1)
          (by omega) (by omega)
        rw [Nat.add_sub_cancel' (by omega)] at hsplit
        rw [hk, ← hsplit]
        congr 1
        omega

/-- **At one size the sides determine the index.** The last side tells the halves apart, and what is
before it are the sides within the half. -/
theorem auditSides_inj {n i j : Nat} (hi : i < n) (hj : j < n)
    (h : auditSides i n = auditSides j n) : i = j := by
  induction n using Nat.strongRecOn generalizing i j with
  | ind n ih =>
    rcases Nat.lt_or_ge n 2 with hn | hn
    · omega
    · have hpos := splitPoint_pos hn
      have hlt := splitPoint_lt hn
      rcases Nat.lt_or_ge i (splitPoint n) with hil | hir
      · rcases Nat.lt_or_ge j (splitPoint n) with hjl | hjr
        · rw [auditSides_left hn hil, auditSides_left hn hjl] at h
          exact ih (splitPoint n) hlt hil hjl (List.append_cancel_right h)
        · rw [auditSides_left hn hil, auditSides_right hn hjr] at h
          cases (List.append_inj' h rfl).2
      · rcases Nat.lt_or_ge j (splitPoint n) with hjl | hjr
        · rw [auditSides_right hn hir, auditSides_left hn hjl] at h
          cases (List.append_inj' h rfl).2
        · rw [auditSides_right hn hir, auditSides_right hn hjr] at h
          have hrest : i - splitPoint n = j - splitPoint n :=
            ih (n - splitPoint n) (by omega) (by omega) (by omega) (List.append_cancel_right h)
          omega

/-! ## Completeness and soundness -/

section

variable {D : Type*} (node : D → D → D) (empty : D)

theorem root_split {xs : List D} (h : 2 ≤ xs.length) :
    root node empty xs = node (root node empty (xs.take (splitPoint xs.length)))
      (root node empty (xs.drop (splitPoint xs.length))) := by
  match xs, h with
  | _ :: _ :: _, _ => rw [root]

theorem auditPath_left {xs : List D} (h : 2 ≤ xs.length) {i : Nat} (hi : i < splitPoint xs.length) :
    auditPath node empty i xs = auditPath node empty i (xs.take (splitPoint xs.length))
      ++ [root node empty (xs.drop (splitPoint xs.length))] := by
  match xs, h, hi with
  | _ :: _ :: _, _, hi => rw [auditPath, if_pos hi]

theorem auditPath_right {xs : List D} (h : 2 ≤ xs.length) {i : Nat}
    (hi : splitPoint xs.length ≤ i) :
    auditPath node empty i xs
      = auditPath node empty (i - splitPoint xs.length) (xs.drop (splitPoint xs.length))
        ++ [root node empty (xs.take (splitPoint xs.length))] := by
  match xs, h, hi with
  | _ :: _ :: _, _, hi => rw [auditPath, if_neg (Nat.not_lt.2 hi)]

theorem rootPairs_split {xs : List D} (h : 2 ≤ xs.length) :
    rootPairs node empty xs
      = (root node empty (xs.take (splitPoint xs.length)),
          root node empty (xs.drop (splitPoint xs.length)))
        :: (rootPairs node empty (xs.take (splitPoint xs.length))
          ++ rootPairs node empty (xs.drop (splitPoint xs.length))) := by
  match xs, h with
  | _ :: _ :: _, _ => rw [rootPairs]

theorem exists_cons_cons {xs : List D} (h : 2 ≤ xs.length) : ∃ x y rest, xs = x :: y :: rest := by
  rcases xs with _ | ⟨x, _ | ⟨y, rest⟩⟩
  · simp at h
  · simp at h
  · exact ⟨x, y, rest, rfl⟩

/-- Induction over the halves of a leaf list. -/
theorem split_induction {P : List D → Prop} (nil : P []) (one : ∀ x, P [x])
    (split : ∀ xs : List D, 2 ≤ xs.length → P (xs.take (splitPoint xs.length)) →
      P (xs.drop (splitPoint xs.length)) → P xs) (xs : List D) : P xs := by
  induction hn : xs.length using Nat.strongRecOn generalizing xs with
  | ind n ih =>
    match xs, hn with
    | [], _ => exact nil
    | [x], _ => exact one x
    | x :: y :: rest, hn =>
      have h2 : 2 ≤ (x :: y :: rest).length := by simp
      have hpos := splitPoint_pos h2
      have hlt := splitPoint_lt h2
      refine split _ h2 (ih _ ?_ _ rfl) (ih _ ?_ _ rfl)
      · rw [List.length_take]
        omega
      · rw [List.length_drop]
        omega

theorem length_take_splitPoint {xs : List D} (h : 2 ≤ xs.length) :
    (xs.take (splitPoint xs.length)).length = splitPoint xs.length := by
  have := splitPoint_lt h
  rw [List.length_take]
  omega

theorem length_auditPath (xs : List D) (i : Nat) :
    (auditPath node empty i xs).length = (auditSides i xs.length).length := by
  induction xs using split_induction generalizing i with
  | nil => rw [auditSides_of_lt_two (by simp), auditPath]; rfl
  | one x => rw [auditSides_of_lt_two (by simp), auditPath]; rfl
  | split xs h2 ihl ihr =>
    rcases Nat.lt_or_ge i (splitPoint xs.length) with hi | hi
    · rw [auditPath_left node empty h2 hi, auditSides_left h2 hi, List.length_append, ihl,
        length_take_splitPoint h2]
      simp
    · rw [auditPath_right node empty h2 hi, auditSides_right h2 hi, List.length_append, ihr,
        List.length_drop]
      simp

/-- **Completeness**: the audit path folds its leaf to the root. -/
theorem climb_auditPath {xs : List D} {i : Nat} {x : D} (hx : xs[i]? = some x) :
    climb node x ((auditSides i xs.length).zip (auditPath node empty i xs))
      = root node empty xs := by
  induction xs using split_induction generalizing i with
  | nil => cases hx
  | one y =>
    obtain ⟨rfl, rfl⟩ : i = 0 ∧ y = x := by
      cases i <;> simp_all
    rw [auditSides_of_lt_two (by simp), root]
    rfl
  | split xs h2 ihl ihr =>
    rw [root_split node empty h2]
    rcases Nat.lt_or_ge i (splitPoint xs.length) with hi | hi
    · have hlen := length_auditPath node empty (xs.take (splitPoint xs.length)) i
      rw [length_take_splitPoint h2] at hlen ihl
      rw [auditPath_left node empty h2 hi, auditSides_left h2 hi, List.zip_append hlen.symm,
        climb_append, ihl (by rw [List.getElem?_take, if_pos hi]; exact hx)]
      rfl
    · have hlen := length_auditPath node empty (xs.drop (splitPoint xs.length))
        (i - splitPoint xs.length)
      rw [List.length_drop] at hlen ihr
      rw [auditPath_right node empty h2 hi, auditSides_right h2 hi, List.zip_append hlen.symm,
        climb_append, ihr (by rw [List.getElem?_drop, Nat.add_sub_cancel' hi]; exact hx)]
      rfl

/-- A fold whose last step reaches a node: the pair it combines is the node's, when the node
operation does not confuse the two. -/
theorem climb_concat_eq_node {S : Set (D × D)} (hinj : Set.InjOn (fun p => node p.1 p.2) S)
    {r l' r' : D} {steps : List (Side × D)} {step : Side × D}
    (hpairs : ∀ p ∈ climbPairs node r (steps ++ [step]), p ∈ S) (hnode : (l', r') ∈ S)
    (h : climb node r (steps ++ [step]) = node l' r') :
    pairOf (climb node r steps) step = (l', r') := by
  rw [climb_append] at h
  rw [climbPairs_append] at hpairs
  exact hinj (hpairs _ (by simp [climbPairs])) hnode h

/-- **Soundness**: a path of the audit path's length that folds a candidate to the root is the
audit path, and the candidate its leaf, when the node operation confuses none of the pairs that the
tree and the fold combine. -/
theorem eq_auditPath_of_climb {S : Set (D × D)} (hinj : Set.InjOn (fun p => node p.1 p.2) S)
    {xs : List D} {i : Nat} {x : D} {path : List D} (hi : i < xs.length)
    (hlen : path.length = (auditSides i xs.length).length)
    (htree : ∀ p ∈ rootPairs node empty xs, p ∈ S)
    (hfold : ∀ p ∈ climbPairs node x ((auditSides i xs.length).zip path), p ∈ S)
    (h : climb node x ((auditSides i xs.length).zip path) = root node empty xs) :
    xs[i]? = some x ∧ path = auditPath node empty i xs := by
  induction xs using split_induction generalizing i path with
  | nil => cases hi
  | one y =>
    obtain rfl : i = 0 := by simpa using hi
    rw [auditSides_of_lt_two (by simp)] at hlen h
    obtain rfl : path = [] := List.length_eq_zero_iff.1 hlen
    rw [root] at h
    exact ⟨congrArg some h.symm, by rw [auditPath]⟩
  | split xs h2 ihl ihr =>
    have hlt := splitPoint_lt h2
    rw [rootPairs_split node empty h2] at htree
    rw [root_split node empty h2] at h
    have hnode := htree _ List.mem_cons_self
    -- the last sibling of the path stands at the top
    obtain ⟨path, last, rfl⟩ : ∃ init last, path = init ++ [last] := by
      rcases List.eq_nil_or_concat path with rfl | ⟨init, last, hpath⟩
      · exfalso
        rcases Nat.lt_or_ge i (splitPoint xs.length) with hi' | hi'
        · simp [auditSides_left h2 hi'] at hlen
        · simp [auditSides_right h2 hi'] at hlen
      · exact ⟨init, last, by simpa using hpath⟩
    rcases Nat.lt_or_ge i (splitPoint xs.length) with hi' | hi'
    · rw [auditSides_left h2 hi'] at hlen h hfold
      have hlen' : (auditSides i (splitPoint xs.length)).length = path.length := by
        simpa using hlen.symm
      rw [List.zip_append hlen'] at h hfold
      have hpair := climb_concat_eq_node node hinj hfold hnode h
      obtain ⟨hsub, rfl⟩ := Prod.mk.inj hpair
      rw [climbPairs_append] at hfold
      rw [length_take_splitPoint h2] at ihl
      obtain ⟨hleaf, hpath⟩ := @ihl i path hi' hlen'.symm (fun p hp => htree p (by simp [hp]))
        (fun p hp => hfold p (by simp [hp])) hsub
      rw [List.getElem?_take, if_pos hi'] at hleaf
      exact ⟨hleaf, by rw [auditPath_left node empty h2 hi', ← hpath]⟩
    · rw [auditSides_right h2 hi'] at hlen h hfold
      have hlen' : (auditSides (i - splitPoint xs.length)
          (xs.length - splitPoint xs.length)).length = path.length := by
        simpa using hlen.symm
      rw [List.zip_append hlen'] at h hfold
      have hpair := climb_concat_eq_node node hinj hfold hnode h
      obtain ⟨rfl, hsub⟩ := Prod.mk.inj hpair
      rw [climbPairs_append] at hfold
      rw [List.length_drop] at ihr
      obtain ⟨hleaf, hpath⟩ := @ihr (i - splitPoint xs.length) path (by omega) hlen'.symm
        (fun p hp => htree p (by simp [hp])) (fun p hp => hfold p (by simp [hp])) hsub
      rw [List.getElem?_drop, Nat.add_sub_cancel' hi'] at hleaf
      exact ⟨hleaf, by rw [auditPath_right node empty h2 hi', ← hpath]⟩

theorem root_cases (xs : List D) : (xs = [] ∧ root node empty xs = empty) ∨
    (∃ x, xs = [x] ∧ root node empty xs = x) ∨ 2 ≤ xs.length := by
  rcases xs with _ | ⟨x, _ | ⟨y, rest⟩⟩
  · exact .inl ⟨rfl, by rw [root]⟩
  · exact .inr (.inl ⟨x, rfl, by rw [root]⟩)
  · exact .inr (.inr (by simp))

/-- **The root commits to the leaves**, and to how many they are, when the node operation confuses
none of the pairs combined and yields no leaf and not the empty root. -/
theorem eq_of_root_eq {S : Set (D × D)} (hinj : Set.InjOn (fun p => node p.1 p.2) S) {T : Set D}
    (hleaf : ∀ x ∈ T, ∀ p ∈ S, x ≠ node p.1 p.2) (hempty : empty ∉ T)
    (hnode : ∀ p ∈ S, empty ≠ node p.1 p.2) {xs ys : List D}
    (hxs : (∀ x ∈ xs, x ∈ T) ∧ ∀ p ∈ rootPairs node empty xs, p ∈ S)
    (hys : (∀ y ∈ ys, y ∈ T) ∧ ∀ p ∈ rootPairs node empty ys, p ∈ S)
    (h : root node empty xs = root node empty ys) : xs = ys := by
  induction xs using split_induction generalizing ys with
  | nil =>
    rw [root] at h
    rcases root_cases node empty ys with ⟨rfl, -⟩ | ⟨y, rfl, hy⟩ | hlong
    · rfl
    · exact absurd (hys.1 y (by simp)) (h.trans hy ▸ hempty)
    · rw [rootPairs_split node empty hlong] at hys
      exact absurd (h.trans (root_split node empty hlong)) (hnode _ (hys.2 _ List.mem_cons_self))
  | one x =>
    have hx : x ∈ T := hxs.1 x (by simp)
    rw [root] at h
    rcases root_cases node empty ys with ⟨rfl, hy⟩ | ⟨y, rfl, hy⟩ | hlong
    · exact absurd hx (h.trans hy ▸ hempty)
    · rw [h.trans hy]
    · rw [rootPairs_split node empty hlong] at hys
      exact absurd (h.trans (root_split node empty hlong))
        (hleaf x hx _ (hys.2 _ List.mem_cons_self))
  | split xs hlong ihl ihr =>
    have hpairs := rootPairs_split node empty hlong
    rw [root_split node empty hlong] at h
    rw [hpairs] at hxs
    have hmem := hxs.2 _ List.mem_cons_self
    rcases root_cases node empty ys with ⟨rfl, hy⟩ | ⟨y, rfl, hy⟩ | hlong'
    · exact absurd (h.trans hy).symm (hnode _ hmem)
    · exact absurd (h.trans hy).symm (hleaf y (hys.1 y (by simp)) _ hmem)
    · rw [root_split node empty hlong'] at h
      rw [rootPairs_split node empty hlong'] at hys
      obtain ⟨hl, hr⟩ := Prod.mk.inj (hinj hmem (hys.2 _ List.mem_cons_self) h)
      have hleft := ihl
        ⟨fun x hx => hxs.1 x (List.mem_of_mem_take hx), fun p hp => hxs.2 p (by simp [hp])⟩
        ⟨fun y hy => hys.1 y (List.mem_of_mem_take hy), fun p hp => hys.2 p (by simp [hp])⟩ hl
      have hright := ihr
        ⟨fun x hx => hxs.1 x (List.mem_of_mem_drop hx), fun p hp => hxs.2 p (by simp [hp])⟩
        ⟨fun y hy => hys.1 y (List.mem_of_mem_drop hy), fun p hp => hys.2 p (by simp [hp])⟩ hr
      rw [← List.take_append_drop (splitPoint xs.length) xs, hleft, hright, List.take_append_drop]

end

end Lib.Merkle
