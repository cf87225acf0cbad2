import Mathlib.Data.List.Nodup
import Mathlib.Tactic

/-!
# Trails of a slot

A machine with one slot writes down each record it puts into the slot, and each record it gives up.
`Sound` relates what is written down to the slot: it says which record the slot must hold, so the
trail can be read without the machine. `Sound.open` and `Sound.close` extend a sound trail by one
event.
-/

namespace Lib.Trail

/-- How events are read: which of them open a record, the record they carry, and the key that tells
records apart. -/
structure Reading (ε ρ κ : Type*) where
  opens : ε → Bool
  record : ε → ρ
  key : ρ → κ

section

variable {ε ρ κ : Type*} (R : Reading ε ρ κ)

def openings (trail : List ε) : List ρ := (trail.filter R.opens).map R.record

def closedKeys (trail : List ε) : List κ :=
  (trail.filter fun e => !R.opens e).map fun e => R.key (R.record e)

theorem openings_append (l l' : List ε) :
    openings R (l ++ l') = openings R l ++ openings R l' := by
  simp [openings]

theorem closedKeys_append (l l' : List ε) :
    closedKeys R (l ++ l') = closedKeys R l ++ closedKeys R l' := by
  simp [closedKeys]

variable [DecidableEq κ]

/-- No key is opened twice, what is given up was opened before and is given up once, and the slot
holds the record opened last unless it was given up. -/
structure Sound (trail : List ε) (slot : Option ρ) : Prop where
  distinct : ((openings R trail).map R.key).Nodup
  matched : ∀ pre e post, trail = pre ++ e :: post → R.opens e = false →
    R.record e ∈ openings R pre
  once : (closedKeys R trail).Nodup
  slot_eq : slot = (openings R trail).getLast?.filter fun r => decide (R.key r ∉ closedKeys R trail)

theorem Sound.nil : Sound R [] none where
  distinct := List.nodup_nil
  matched := fun pre e post h => absurd h (by simp)
  once := List.nodup_nil
  slot_eq := rfl

variable {R} {trail : List ε} {slot : Option ρ} {e : ε}

theorem Sound.closedKeys_subset (h : Sound R trail slot) :
    closedKeys R trail ⊆ (openings R trail).map R.key := by
  intro k hk
  obtain ⟨e, he, rfl⟩ := List.mem_map.1 hk
  obtain ⟨hmem, hcloses⟩ := List.mem_filter.1 he
  obtain ⟨pre, post, rfl⟩ := List.append_of_mem hmem
  have hopened := h.matched pre e post rfl (by simpa using hcloses)
  rw [openings_append, List.map_append]
  exact List.mem_append_left _ (List.mem_map_of_mem hopened)

theorem Sound.slot_eq_some_iff (h : Sound R trail slot) {r : ρ} :
    slot = some r ↔ (openings R trail).getLast? = some r ∧ R.key r ∉ closedKeys R trail := by
  rw [h.slot_eq, Option.filter_eq_some_iff, decide_eq_true_iff]

theorem append_singleton_cases {e e' : ε} {pre post : List ε}
    (h : trail ++ [e] = pre ++ e' :: post) :
    (∃ post', trail = pre ++ e' :: post') ∨ trail = pre ∧ e = e' := by
  rcases List.eq_nil_or_concat post with rfl | ⟨post', last, rfl⟩
  · obtain ⟨hpre, hlast⟩ := List.append_inj' h rfl
    exact .inr ⟨hpre, List.head_eq_of_cons_eq hlast⟩
  · rw [List.concat_eq_append, ← List.cons_append, ← List.append_assoc] at h
    exact .inl ⟨post', (List.append_inj' h rfl).1⟩

/-- **A record with a new key goes into the slot.** -/
theorem Sound.open (h : Sound R trail slot) (hopens : R.opens e = true)
    (hfresh : R.key (R.record e) ∉ (openings R trail).map R.key) :
    Sound R (trail ++ [e]) (some (R.record e)) := by
  have hopenings : openings R (trail ++ [e]) = openings R trail ++ [R.record e] := by
    rw [openings_append]
    simp [openings, hopens]
  have hclosed : closedKeys R (trail ++ [e]) = closedKeys R trail := by
    rw [closedKeys_append]
    simp [closedKeys, hopens]
  constructor
  · rw [hopenings, List.map_append, List.map_singleton]
    exact List.nodup_append.2 ⟨h.distinct, List.nodup_singleton _, by
      rintro k hk k' hk' rfl
      exact hfresh (List.mem_singleton.1 hk' ▸ hk)⟩
  · intro pre e' post heq hcloses
    obtain ⟨post', rfl⟩ | ⟨rfl, rfl⟩ := append_singleton_cases heq
    · exact h.matched pre e' post' rfl hcloses
    · rw [hopens] at hcloses
      cases hcloses
  · rw [hclosed]
    exact h.once
  · have hlive : R.key (R.record e) ∉ closedKeys R trail :=
      fun hmem => hfresh (h.closedKeys_subset hmem)
    rw [hopenings, hclosed, List.getLast?_concat, eq_comm, Option.filter_eq_some_iff]
    exact ⟨rfl, decide_eq_true hlive⟩

/-- **A record is given up**: the slot keeps what it holds, unless that is the record. -/
theorem Sound.close (h : Sound R trail slot) (hcloses : R.opens e = false)
    (hopened : R.record e ∈ openings R trail)
    (hlive : R.key (R.record e) ∉ closedKeys R trail) :
    Sound R (trail ++ [e]) (slot.filter fun r => decide (R.key r ≠ R.key (R.record e))) := by
  have hopenings : openings R (trail ++ [e]) = openings R trail := by
    rw [openings_append]
    simp [openings, hcloses]
  have hclosed : closedKeys R (trail ++ [e]) = closedKeys R trail ++ [R.key (R.record e)] := by
    rw [closedKeys_append]
    simp [closedKeys, hcloses]
  constructor
  · rw [hopenings]
    exact h.distinct
  · intro pre e' post heq hcloses'
    obtain ⟨post', rfl⟩ | ⟨rfl, rfl⟩ := append_singleton_cases heq
    · exact h.matched pre e' post' rfl hcloses'
    · exact hopened
  · rw [hclosed]
    exact List.nodup_append.2 ⟨h.once, List.nodup_singleton _, by
      rintro k hk k' hk' rfl
      exact hlive (List.mem_singleton.1 hk' ▸ hk)⟩
  · rw [hopenings, hclosed, h.slot_eq, Option.filter_filter]
    congr 1
    funext r
    simp

end

end Lib.Trail
