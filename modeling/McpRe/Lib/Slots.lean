import Mathlib.Tactic

/-!
# A queue bounded by slots

`K` slots are let to tenants. A tenant puts a first item on a queue and later ones after it, each
only when the one before has been taken off, and holds its slot at least as long as an item of its
own is queued. Besides, it may leave one cleanup item behind, which holds no slot: the cleanup of a
tenant that is gone may stand in the queue beside the first item of the next one.

`Balanced` is what such a ledger keeps. Its heart is `cut`: behind any place in the queue, the
cleanups of tenants that are gone are matched by slots that are free, or whose new tenant has its
first item behind that place or has sent nothing yet. `Balanced.room`: a tenant with no item queued
finds fewer than `2 * K` items before its own.
-/

namespace Lib.Slots

variable {τ : Type*} [DecidableEq τ]

inductive Kind where
  | first
  | later
  | cleanup
  deriving DecidableEq

structure Item (τ : Type*) where
  tenant : τ
  kind : Kind

/-- The tenants that hold a slot, those of them that have sent nothing yet, and the queue. -/
structure Ledger (τ : Type*) where
  held : Finset τ
  unsent : Finset τ
  queue : List (Item τ)

def isCleanup (i : Item τ) : Bool := i.kind = .cleanup

def isFirst (i : Item τ) : Bool := i.kind = .first

/-- The tenants of the items that hold a slot. -/
def slotTenants (q : List (Item τ)) : List τ := (q.filter fun i => !isCleanup i).map Item.tenant

def cleanupTenants (q : List (Item τ)) : List τ := (q.filter isCleanup).map Item.tenant

def firstTenants (q : List (Item τ)) : List τ := (q.filter isFirst).map Item.tenant

/-- The cleanups of tenants that hold no slot. -/
def loose (held : Finset τ) (q : List (Item τ)) : List τ :=
  (cleanupTenants q).filter fun t => decide (t ∉ held)

structure Balanced (K : Nat) (l : Ledger τ) : Prop where
  card_le : l.held.card ≤ K
  unsent_subset : l.unsent ⊆ l.held
  slot_held : ∀ t ∈ slotTenants l.queue, t ∈ l.held
  slot_nodup : (slotTenants l.queue).Nodup
  cleanup_nodup : (cleanupTenants l.queue).Nodup
  unsent_out : ∀ i ∈ l.queue, i.tenant ∉ l.unsent
  cut : ∀ q, q <:+ l.queue →
    (loose l.held q).length + l.held.card ≤ K + (firstTenants q).length + l.unsent.card
  ahead : ∀ pre i post, l.queue = pre ++ i :: post → isFirst i = true →
    i.tenant ∈ cleanupTenants l.queue → cleanupTenants pre = []

/-! ## Lists of items -/

section

omit [DecidableEq τ]

theorem slotTenants_append (q r : List (Item τ)) :
    slotTenants (q ++ r) = slotTenants q ++ slotTenants r := by
  simp [slotTenants]

theorem cleanupTenants_append (q r : List (Item τ)) :
    cleanupTenants (q ++ r) = cleanupTenants q ++ cleanupTenants r := by
  simp [cleanupTenants]

theorem firstTenants_append (q r : List (Item τ)) :
    firstTenants (q ++ r) = firstTenants q ++ firstTenants r := by
  simp [firstTenants]

theorem length_eq_add (q : List (Item τ)) :
    q.length = (slotTenants q).length + (cleanupTenants q).length := by
  have h := List.length_eq_length_filter_add (l := q) isCleanup
  simp only [slotTenants, cleanupTenants, List.length_map]
  omega

theorem firstTenants_sublist (q : List (Item τ)) : (firstTenants q).Sublist (slotTenants q) := by
  refine List.Sublist.map _ (List.monotone_filter_right q fun i hi => ?_)
  simp only [isFirst, decide_eq_true_eq] at hi
  simp [isCleanup, hi]

theorem forall_not_or_exists_last (p : Item τ → Prop) (q : List (Item τ)) :
    (∀ i ∈ q, ¬p i) ∨ ∃ pre i post, q = pre ++ i :: post ∧ p i ∧ ∀ j ∈ post, ¬p j := by
  induction q with
  | nil => exact .inl (by simp)
  | cons a q ih =>
    rcases ih with hnone | ⟨pre, i, post, rfl, hi, hpost⟩
    · by_cases ha : p a
      · exact .inr ⟨[], a, q, rfl, ha, hnone⟩
      · refine .inl fun i hi => ?_
        rcases List.mem_cons.1 hi with rfl | hi
        · exact ha
        · exact hnone i hi
    · exact .inr ⟨a :: pre, i, post, rfl, hi, hpost⟩

end

theorem loose_append (held : Finset τ) (q r : List (Item τ)) :
    loose held (q ++ r) = loose held q ++ loose held r := by
  simp [loose, cleanupTenants_append]

/-! ## The bound -/

namespace Balanced

variable {K : Nat} {l : Ledger τ}

/-- The tenants that hold a slot and have a cleanup behind the cut, those whose first item is behind
it and those that have sent nothing are different tenants. -/
theorem card_add_le (h : Balanced K l) {q : List (Item τ)} (hq : q <:+ l.queue)
    (hapart : ∀ i ∈ q, isFirst i = true → i.tenant ∉ cleanupTenants q) :
    ((cleanupTenants q).filter fun t => decide (t ∈ l.held)).length + (firstTenants q).length
      + l.unsent.card ≤ l.held.card := by
  set bound := (cleanupTenants q).filter fun t => decide (t ∈ l.held) with hbound
  obtain ⟨pre, hpre⟩ := hq
  have hsub : ∀ i ∈ q, i ∈ l.queue := fun i hi => hpre ▸ List.mem_append_right _ hi
  have hslot : (slotTenants q).Nodup ∧ ∀ t ∈ slotTenants q, t ∈ l.held := by
    have hnodup := h.slot_nodup
    have hheld := h.slot_held
    rw [← hpre, slotTenants_append] at hnodup hheld
    exact ⟨(List.nodup_append.1 hnodup).2.1, fun t ht => hheld t (List.mem_append_right _ ht)⟩
  have hfirst := firstTenants_sublist q
  have hcleanup : (cleanupTenants q).Nodup := by
    have hnodup := h.cleanup_nodup
    rw [← hpre, cleanupTenants_append] at hnodup
    exact (List.nodup_append.1 hnodup).2.1
  have hnodup : (bound ++ firstTenants q ++ l.unsent.toList).Nodup := by
    refine List.Nodup.append (List.Nodup.append (hcleanup.filter _) (hfirst.nodup hslot.1) ?_)
      l.unsent.nodup_toList ?_
    · intro t ht hfirst
      obtain ⟨i, hi, rfl⟩ := List.mem_map.1 hfirst
      obtain ⟨hi, hkind⟩ := List.mem_filter.1 hi
      exact hapart i hi hkind (List.mem_filter.1 ht).1
    · intro t ht hunsent
      have hmem : ∃ i ∈ q, i.tenant = t := by
        rcases List.mem_append.1 ht with ht | ht
        · obtain ⟨i, hi, rfl⟩ := List.mem_map.1 (List.mem_filter.1 ht).1
          exact ⟨i, (List.mem_filter.1 hi).1, rfl⟩
        · obtain ⟨i, hi, rfl⟩ := List.mem_map.1 ht
          exact ⟨i, (List.mem_filter.1 hi).1, rfl⟩
      obtain ⟨i, hi, rfl⟩ := hmem
      exact h.unsent_out i (hsub i hi) (Finset.mem_toList.1 hunsent)
  have hheld : (bound ++ firstTenants q ++ l.unsent.toList).toFinset ⊆ l.held := by
    intro t ht
    simp only [List.mem_toFinset, List.mem_append, Finset.mem_toList] at ht
    rcases ht with (ht | ht) | ht
    · exact of_decide_eq_true (List.mem_filter.1 ht).2
    · exact hslot.2 t (hfirst.subset ht)
    · exact h.unsent_subset ht
  have hcard := Finset.card_le_card hheld
  rw [List.toFinset_card_of_nodup hnodup] at hcard
  simpa [add_assoc] using hcard

/-- The cleanups behind a cut that separates them from the first items of their tenants are at most
`K`. -/
theorem cleanup_le_of_apart (h : Balanced K l) {q : List (Item τ)} (hq : q <:+ l.queue)
    (hapart : ∀ i ∈ q, isFirst i = true → i.tenant ∉ cleanupTenants q) :
    (cleanupTenants q).length ≤ K := by
  have hcut := h.cut q hq
  have hcard := h.card_add_le hq hapart
  have hsplit := List.length_eq_length_filter_add (l := cleanupTenants q)
    fun t => decide (t ∈ l.held)
  have hloose : loose l.held q = (cleanupTenants q).filter fun t => !decide (t ∈ l.held) := by
    simp [loose]
  rw [hloose] at hcut
  omega

theorem cleanup_le (h : Balanced K l) : (cleanupTenants l.queue).length ≤ K := by
  rcases forall_not_or_exists_last
    (fun i => isFirst i = true ∧ i.tenant ∈ cleanupTenants l.queue) l.queue with
    hnone | ⟨pre, i, post, hqueue, hi, hpost⟩
  · exact h.cleanup_le_of_apart List.suffix_rfl fun i hi hfirst hmem => hnone i hi ⟨hfirst, hmem⟩
  · -- nothing is cleaned up ahead of the last tenant that has both items queued
    have hpre := h.ahead pre i post hqueue hi.1 hi.2
    have hkind : isCleanup i = false := by
      have := hi.1
      simp only [isFirst, decide_eq_true_eq] at this
      simp [isCleanup, this]
    have heq : cleanupTenants l.queue = cleanupTenants post := by
      rw [hqueue, cleanupTenants_append, hpre]
      simp [cleanupTenants, hkind]
    rw [heq]
    refine h.cleanup_le_of_apart ⟨pre ++ [i], by simp [hqueue]⟩ fun j hj hfirst hmem => ?_
    exact hpost j hj ⟨hfirst, heq ▸ hmem⟩

theorem room (h : Balanced K l) {t : τ} (ht : t ∈ l.held) (hslot : t ∉ slotTenants l.queue) :
    l.queue.length < 2 * K := by
  have hsub : (slotTenants l.queue).toFinset ⊆ l.held.erase t := by
    intro u hu
    rw [List.mem_toFinset] at hu
    refine Finset.mem_erase.2 ⟨?_, h.slot_held u hu⟩
    intro heq
    exact hslot (heq ▸ hu)
  have hcard := Finset.card_le_card hsub
  rw [List.toFinset_card_of_nodup h.slot_nodup, Finset.card_erase_of_mem ht] at hcard
  have hpos : 0 < l.held.card := Finset.card_pos.2 ⟨t, ht⟩
  have hle := h.card_le
  have hcleanup := h.cleanup_le
  rw [length_eq_add]
  omega

end Balanced

/-! ## What keeps a ledger balanced -/

variable {K : Nat} {held unsent : Finset τ} {queue : List (Item τ)} {t : τ}

theorem balanced_nil (hcard : held.card ≤ K) (hunsent : unsent ⊆ held) :
    Balanced K ⟨held, unsent, []⟩ where
  card_le := hcard
  unsent_subset := hunsent
  slot_held := by intro t ht; cases ht
  slot_nodup := List.nodup_nil
  cleanup_nodup := List.nodup_nil
  unsent_out := by intro i hi; cases hi
  cut := by
    intro q hq
    rw [List.suffix_nil.1 hq]
    simp only [loose, cleanupTenants, firstTenants, List.filter_nil, List.map_nil, List.length_nil]
    omega
  ahead := by intro pre i post h; cases pre <;> cases h

/-- A new tenant takes a free slot. -/
theorem Balanced.acquire (h : Balanced K ⟨held, unsent, queue⟩) (ht : t ∉ held)
    (hnew : ∀ i ∈ queue, i.tenant ≠ t) (hfree : held.card < K) :
    Balanced K ⟨insert t held, insert t unsent, queue⟩ where
  card_le := by rw [Finset.card_insert_of_notMem ht]; exact hfree
  unsent_subset := Finset.insert_subset_insert t h.unsent_subset
  slot_held := fun u hu => Finset.mem_insert_of_mem (h.slot_held u hu)
  slot_nodup := h.slot_nodup
  cleanup_nodup := h.cleanup_nodup
  unsent_out := by
    intro i hi
    rw [Finset.mem_insert, not_or]
    exact ⟨hnew i hi, h.unsent_out i hi⟩
  cut := by
    intro q hq
    have hunsent : t ∉ unsent := fun hu => ht (h.unsent_subset hu)
    have hloose : loose (insert t held) q = loose held q := by
      refine List.filter_congr fun u hu => ?_
      obtain ⟨i, hi, rfl⟩ := List.mem_map.1 hu
      have hne := hnew i (hq.subset (List.mem_filter.1 hi).1)
      simp [hne]
    have hcut : (loose held q).length + held.card
        ≤ K + (firstTenants q).length + unsent.card := h.cut q hq
    rw [hloose, Finset.card_insert_of_notMem ht, Finset.card_insert_of_notMem hunsent]
    omega
  ahead := h.ahead

omit [DecidableEq τ] in
theorem concat_eq_append {x i : Item τ} {pre post : List (Item τ)}
    (h : queue ++ [x] = pre ++ i :: post) :
    (i = x ∧ pre = queue) ∨ ∃ post', queue = pre ++ i :: post' := by
  rcases List.eq_nil_or_concat post with rfl | ⟨post', y, rfl⟩
  · obtain ⟨rfl, hx⟩ := List.append_inj' h rfl
    exact .inl ⟨(List.singleton_inj.1 hx).symm, rfl⟩
  · have hq : queue ++ [x] = (pre ++ i :: post') ++ [y] := by simpa using h
    exact .inr ⟨post', (List.append_inj' hq rfl).1⟩

omit [DecidableEq τ] in
theorem suffix_concat {x : Item τ} {q : List (Item τ)} (h : q <:+ queue ++ [x]) :
    q = [] ∨ ∃ r, r <:+ queue ∧ q = r ++ [x] := by
  obtain ⟨pre, hpre⟩ := h
  rcases List.eq_nil_or_concat q with rfl | ⟨r, y, rfl⟩
  · exact .inl rfl
  · have hq : (pre ++ r) ++ [y] = queue ++ [x] := by simpa using hpre
    obtain ⟨hr, hy⟩ := List.append_inj' hq rfl
    exact .inr ⟨r, ⟨pre, hr⟩, by rw [List.singleton_inj.1 hy, List.concat_eq_append]⟩

theorem cut_concat {x : Item τ} (hle : held.card ≤ K)
    (h : ∀ r, r <:+ queue → (loose held (r ++ [x])).length + held.card
      ≤ K + (firstTenants (r ++ [x])).length + unsent.card) {q : List (Item τ)}
    (hq : q <:+ queue ++ [x]) :
    (loose held q).length + held.card ≤ K + (firstTenants q).length + unsent.card := by
  rcases suffix_concat hq with rfl | ⟨r, hr, rfl⟩
  · simp only [loose, cleanupTenants, firstTenants, List.filter_nil, List.map_nil, List.length_nil]
    omega
  · exact h r hr

omit [DecidableEq τ] in
theorem exists_of_mem_cleanupTenants {q : List (Item τ)} (h : t ∈ cleanupTenants q) :
    ∃ i ∈ q, i.tenant = t := by
  obtain ⟨i, hi, rfl⟩ := List.mem_map.1 h
  exact ⟨i, (List.mem_filter.1 hi).1, rfl⟩

omit [DecidableEq τ] in
theorem exists_of_mem_slotTenants {q : List (Item τ)} (h : t ∈ slotTenants q) :
    ∃ i ∈ q, i.tenant = t := by
  obtain ⟨i, hi, rfl⟩ := List.mem_map.1 h
  exact ⟨i, (List.mem_filter.1 hi).1, rfl⟩

/-- The first item of a tenant that has sent nothing. -/
theorem Balanced.sendFirst (h : Balanced K ⟨held, unsent, queue⟩) (ht : t ∈ unsent) :
    Balanced K ⟨held, unsent.erase t, queue ++ [⟨t, .first⟩]⟩ := by
  have hslots : slotTenants (queue ++ [⟨t, .first⟩]) = slotTenants queue ++ [t] := by
    rw [slotTenants_append]; rfl
  have hcleanups : cleanupTenants (queue ++ [⟨t, .first⟩]) = cleanupTenants queue := by
    rw [cleanupTenants_append]; exact List.append_nil _
  have hnone : ∀ i ∈ queue, i.tenant ≠ t := fun i hi heq => h.unsent_out i hi (heq ▸ ht)
  constructor
  · exact h.card_le
  · exact (Finset.erase_subset t unsent).trans h.unsent_subset
  · intro u hu
    rw [hslots] at hu
    rcases List.mem_append.1 hu with hu | hu
    · exact h.slot_held u hu
    · rw [List.mem_singleton.1 hu]
      exact h.unsent_subset ht
  · rw [hslots]
    refine List.Nodup.append h.slot_nodup (List.nodup_singleton t) ?_
    intro u hu hut
    obtain ⟨i, hi, rfl⟩ := exists_of_mem_slotTenants hu
    exact hnone i hi (List.mem_singleton.1 hut)
  · rw [hcleanups]
    exact h.cleanup_nodup
  · intro i hi
    rcases List.mem_append.1 hi with hi | hi
    · exact fun hu => h.unsent_out i hi (Finset.mem_of_mem_erase hu)
    · rw [List.mem_singleton.1 hi]
      exact Finset.notMem_erase t unsent
  · refine fun q hq => cut_concat h.card_le (fun r hr => ?_) hq
    have hcard := Finset.card_erase_add_one ht
    have hcut : (loose held r).length + held.card
        ≤ K + (firstTenants r).length + unsent.card := h.cut r hr
    have hloose : loose held (r ++ [⟨t, .first⟩]) = loose held r := by
      rw [loose_append]; exact List.append_nil _
    have hfirsts : firstTenants (r ++ [⟨t, .first⟩]) = firstTenants r ++ [t] := by
      rw [firstTenants_append]; rfl
    rw [hloose, hfirsts, List.length_append, List.length_singleton]
    change (loose held r).length + held.card
      ≤ K + ((firstTenants r).length + 1) + (unsent.erase t).card
    omega
  · intro pre i post hqueue hfirst hmem
    rw [hcleanups] at hmem
    rcases concat_eq_append hqueue with ⟨rfl, rfl⟩ | ⟨post', hqueue'⟩
    · obtain ⟨j, hj, htenant⟩ := exists_of_mem_cleanupTenants hmem
      exact absurd htenant (hnone j hj)
    · exact h.ahead pre i post' hqueue' hfirst hmem

/-- A later item of a tenant whose items have all been taken. -/
theorem Balanced.sendLater (h : Balanced K ⟨held, unsent, queue⟩) (ht : t ∈ held)
    (hsent : t ∉ unsent) (hslot : t ∉ slotTenants queue) :
    Balanced K ⟨held, unsent, queue ++ [⟨t, .later⟩]⟩ := by
  have hslots : slotTenants (queue ++ [⟨t, .later⟩]) = slotTenants queue ++ [t] := by
    rw [slotTenants_append]; rfl
  have hcleanups : cleanupTenants (queue ++ [⟨t, .later⟩]) = cleanupTenants queue := by
    rw [cleanupTenants_append]; exact List.append_nil _
  constructor
  · exact h.card_le
  · exact h.unsent_subset
  · intro u hu
    rw [hslots] at hu
    rcases List.mem_append.1 hu with hu | hu
    · exact h.slot_held u hu
    · rw [List.mem_singleton.1 hu]
      exact ht
  · rw [hslots]
    refine List.Nodup.append h.slot_nodup (List.nodup_singleton t) ?_
    intro u hu hut
    exact hslot (List.mem_singleton.1 hut ▸ hu)
  · rw [hcleanups]
    exact h.cleanup_nodup
  · intro i hi
    rcases List.mem_append.1 hi with hi | hi
    · exact h.unsent_out i hi
    · rw [List.mem_singleton.1 hi]
      exact hsent
  · refine fun q hq => cut_concat h.card_le (fun r hr => ?_) hq
    have hloose : loose held (r ++ [⟨t, .later⟩]) = loose held r := by
      rw [loose_append]; exact List.append_nil _
    have hfirsts : firstTenants (r ++ [⟨t, .later⟩]) = firstTenants r := by
      rw [firstTenants_append]; exact List.append_nil _
    rw [hloose, hfirsts]
    exact h.cut r hr
  · intro pre i post hqueue hfirst hmem
    rw [hcleanups] at hmem
    rcases concat_eq_append hqueue with ⟨rfl, rfl⟩ | ⟨post', hqueue'⟩
    · cases hfirst
    · exact h.ahead pre i post' hqueue' hfirst hmem

/-- The cleanup of a tenant that holds its slot: if its own first item is still queued, no cleanup
is ahead of that. -/
theorem Balanced.sendCleanup (h : Balanced K ⟨held, unsent, queue⟩) (ht : t ∈ held)
    (hsent : t ∉ unsent) (hnone : t ∉ cleanupTenants queue)
    (hahead : ∀ pre i post, queue = pre ++ i :: post → isFirst i = true → i.tenant = t →
      cleanupTenants pre = []) :
    Balanced K ⟨held, unsent, queue ++ [⟨t, .cleanup⟩]⟩ := by
  have hslots : slotTenants (queue ++ [⟨t, .cleanup⟩]) = slotTenants queue := by
    rw [slotTenants_append]; exact List.append_nil _
  have hcleanups : cleanupTenants (queue ++ [⟨t, .cleanup⟩]) = cleanupTenants queue ++ [t] := by
    rw [cleanupTenants_append]; rfl
  constructor
  · exact h.card_le
  · exact h.unsent_subset
  · rw [hslots]
    exact h.slot_held
  · rw [hslots]
    exact h.slot_nodup
  · rw [hcleanups]
    refine List.Nodup.append h.cleanup_nodup (List.nodup_singleton t) ?_
    intro u hu hut
    exact hnone (List.mem_singleton.1 hut ▸ hu)
  · intro i hi
    rcases List.mem_append.1 hi with hi | hi
    · exact h.unsent_out i hi
    · rw [List.mem_singleton.1 hi]
      exact hsent
  · refine fun q hq => cut_concat h.card_le (fun r hr => ?_) hq
    have hloose : loose held (r ++ [⟨t, .cleanup⟩]) = loose held r := by
      rw [loose_append]
      simp [loose, cleanupTenants, isCleanup, ht]
    have hfirsts : firstTenants (r ++ [⟨t, .cleanup⟩]) = firstTenants r := by
      rw [firstTenants_append]; exact List.append_nil _
    rw [hloose, hfirsts]
    exact h.cut r hr
  · intro pre i post hqueue hfirst hmem
    rw [hcleanups] at hmem
    rcases concat_eq_append hqueue with ⟨rfl, rfl⟩ | ⟨post', hqueue'⟩
    · cases hfirst
    · rcases List.mem_append.1 hmem with hmem | hmem
      · exact h.ahead pre i post' hqueue' hfirst hmem
      · exact hahead pre i post' hqueue' hfirst (List.mem_singleton.1 hmem)

theorem loose_erase_le {q : List (Item τ)} (hnodup : (cleanupTenants q).Nodup) :
    (loose (held.erase t) q).length ≤ (loose held q).length + 1 := by
  have hcount := List.nodup_iff_count_le_one.1 hnodup t
  simp only [loose, ← List.countP_eq_length_filter]
  have hsplit : ∀ xs : List τ, xs.countP (fun u => decide (u ∉ held.erase t))
      ≤ xs.countP (fun u => decide (u ∉ held)) + xs.count t := by
    intro xs
    induction xs with
    | nil => simp
    | cons x xs ih =>
      simp only [List.countP_cons, List.count_cons]
      by_cases hx : x = t
      · simp [hx] at ih ⊢
        omega
      · simp [hx] at ih ⊢
        omega
  have := hsplit (cleanupTenants q)
  omega

theorem Balanced.release (h : Balanced K ⟨held, unsent, queue⟩) (ht : t ∈ held)
    (hsent : t ∉ unsent) (hslot : t ∉ slotTenants queue) :
    Balanced K ⟨held.erase t, unsent, queue⟩ where
  card_le := (Finset.card_le_card (Finset.erase_subset t held)).trans h.card_le
  unsent_subset := fun u hu => Finset.mem_erase.2 ⟨fun heq => hsent (heq ▸ hu), h.unsent_subset hu⟩
  slot_held := fun u hu => Finset.mem_erase.2 ⟨fun heq => hslot (heq ▸ hu), h.slot_held u hu⟩
  slot_nodup := h.slot_nodup
  cleanup_nodup := h.cleanup_nodup
  unsent_out := h.unsent_out
  cut := by
    intro q hq
    have hnodup : (cleanupTenants q).Nodup := by
      obtain ⟨pre, hpre⟩ := hq
      have hall := h.cleanup_nodup
      rw [← hpre, cleanupTenants_append] at hall
      exact (List.nodup_append.1 hall).2.1
    have hcut := h.cut q hq
    have hloose : (loose (held.erase t) q).length ≤ (loose held q).length + 1 :=
      loose_erase_le hnodup
    have hcard := Finset.card_erase_add_one ht
    simp only at hcut ⊢
    omega
  ahead := h.ahead

/-- The item at the head is taken. -/
theorem Balanced.take {i : Item τ} (h : Balanced K ⟨held, unsent, i :: queue⟩) :
    Balanced K ⟨held, unsent, queue⟩ := by
  have hslots : (slotTenants queue).Sublist (slotTenants (i :: queue)) :=
    ((List.sublist_cons_self i queue).filter _).map _
  have hcleanups : (cleanupTenants queue).Sublist (cleanupTenants (i :: queue)) :=
    ((List.sublist_cons_self i queue).filter _).map _
  constructor
  · exact h.card_le
  · exact h.unsent_subset
  · exact fun t ht => h.slot_held t (hslots.subset ht)
  · exact hslots.nodup h.slot_nodup
  · exact hcleanups.nodup h.cleanup_nodup
  · exact fun j hj => h.unsent_out j (List.mem_cons_of_mem _ hj)
  · exact fun q hq => h.cut q (hq.trans (List.suffix_cons i queue))
  · intro pre j post hqueue hfirst hmem
    have hfull := h.ahead (i :: pre) j post (by rw [List.cons_append, ← hqueue]) hfirst
      (hcleanups.subset hmem)
    have hsub : (cleanupTenants pre).Sublist (cleanupTenants (i :: pre)) :=
      ((List.sublist_cons_self i pre).filter _).map _
    rw [hfull] at hsub
    exact List.sublist_nil.1 hsub

end Lib.Slots
