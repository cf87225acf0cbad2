import Mathlib.Data.List.AList
import Mathlib.Tactic

/-!
# Finite tables

Mathlib's association lists as the map of a store: keeping the entries that pass a test, and summing
a weight over the entries. Each operation comes with what it does to `lookup` and to `total`.
-/

namespace Lib

/-- A finite map. -/
abbrev Table (α β : Type*) := AList (fun _ : α => β)

namespace Table

section

variable {α β : Type*}

def size (t : Table α β) : Nat := t.entries.length

def retain (p : α → β → Bool) (t : Table α β) : Table α β where
  entries := t.entries.filter fun e => p e.1 e.2
  nodupKeys := t.nodupKeys.sublist List.filter_sublist

def mapValues (f : β → β) (t : Table α β) : Table α β where
  entries := t.entries.map fun e => ⟨e.1, f e.2⟩
  nodupKeys := by
    unfold List.NodupKeys List.keys
    rw [List.map_map]
    exact t.nodupKeys

def total (f : α → β → Nat) (t : Table α β) : Nat := (t.entries.map fun e => f e.1 e.2).sum

theorem size_retain_le (p : α → β → Bool) (t : Table α β) : (t.retain p).size ≤ t.size :=
  List.length_filter_le ..

theorem total_mono {f g : α → β → Nat} (h : ∀ a b, f a b ≤ g a b) (t : Table α β) :
    total f t ≤ total g t := by
  unfold total
  induction t.entries with
  | nil => exact Nat.le_refl 0
  | cons e rest ih =>
    rw [List.map_cons, List.map_cons, List.sum_cons, List.sum_cons]
    exact Nat.add_le_add (h e.1 e.2) ih

/-- What is not kept weighs nothing. -/
theorem total_retain (f : α → β → Nat) (p : α → β → Bool) (t : Table α β) :
    total f (t.retain p) = total (fun a b => if p a b then f a b else 0) t := by
  unfold total retain
  dsimp only
  induction t.entries with
  | nil => rfl
  | cons e rest ih =>
    rw [List.filter_cons, List.map_cons, List.sum_cons, ← ih]
    by_cases hp : p e.1 e.2 = true
    · rw [if_pos hp, if_pos hp, List.map_cons, List.sum_cons]
    · rw [if_neg hp, if_neg hp, Nat.zero_add]

theorem total_add (f g : α → β → Nat) (t : Table α β) :
    total (fun a b => f a b + g a b) t = total f t + total g t := by
  unfold total
  exact List.sum_map_add

theorem total_retain_add (f : α → β → Nat) (p : α → β → Bool) (t : Table α β) :
    total f (t.retain p) + total f (t.retain fun a b => !p a b) = total f t := by
  rw [total_retain, total_retain, ← total_add]
  congr 1
  funext a b
  cases p a b <;> simp

end

section

variable {α β : Type*} [DecidableEq α]

theorem lookup_retain (p : α → β → Bool) (t : Table α β) (a : α) :
    (t.retain p).lookup a = (t.lookup a).filter (p a) := by
  ext b
  rw [← Option.mem_def, AList.mem_lookup_iff, Option.filter_eq_some_iff, ← Option.mem_def,
    AList.mem_lookup_iff]
  simp only [retain, List.mem_filter]

theorem lookup_mapValues (f : β → β) (t : Table α β) (a : α) :
    (t.mapValues f).lookup a = (t.lookup a).map f := by
  ext b
  rw [← Option.mem_def, AList.mem_lookup_iff, Option.map_eq_some_iff]
  simp only [mapValues, List.mem_map]
  constructor
  · rintro ⟨⟨a', c⟩, hmem, heq⟩
    cases heq
    exact ⟨c, Option.mem_def.1 (AList.mem_lookup_iff.2 hmem), rfl⟩
  · rintro ⟨c, hmem, rfl⟩
    exact ⟨⟨a, c⟩, AList.mem_lookup_iff.1 hmem, rfl⟩

/-- Tables that differ by a map of their entries hold the same entries up to that map. -/
theorem perm_of_lookup_eq_map {γ : Type*} {s : Table α β} {t : Table α γ} {f : γ → β}
    (h : ∀ a, s.lookup a = (t.lookup a).map f) :
    (t.entries.map fun e => (⟨e.1, f e.2⟩ : Sigma fun _ : α => β)).Perm s.entries := by
  have hkeys : (t.entries.map fun e => (⟨e.1, f e.2⟩ : Sigma fun _ : α => β)).NodupKeys := by
    unfold List.NodupKeys List.keys
    rw [List.map_map]
    exact t.nodupKeys
  refine (List.perm_ext_iff_of_nodup hkeys.nodup s.nodupKeys.nodup).2 fun ⟨a, b⟩ => ?_
  rw [← AList.mem_lookup_iff, Option.mem_def, h a, Option.map_eq_some_iff, List.mem_map]
  constructor
  · rintro ⟨⟨a', c⟩, hmem, heq⟩
    cases heq
    exact ⟨c, Option.mem_def.1 (AList.mem_lookup_iff.2 hmem), rfl⟩
  · rintro ⟨c, hmem, rfl⟩
    exact ⟨⟨a, c⟩, AList.mem_lookup_iff.1 hmem, rfl⟩

theorem total_eq_of_lookup_eq_map {γ : Type*} {s : Table α β} {t : Table α γ} {f : γ → β}
    (h : ∀ a, s.lookup a = (t.lookup a).map f) (g : α → β → Nat) :
    total g s = total (fun a c => g a (f c)) t := by
  unfold total
  rw [← ((perm_of_lookup_eq_map h).map _).sum_eq, List.map_map]
  rfl

theorem size_eq_of_lookup_eq_map {γ : Type*} {s : Table α β} {t : Table α γ} {f : γ → β}
    (h : ∀ a, s.lookup a = (t.lookup a).map f) : size s = size t := by
  unfold size
  rw [← (perm_of_lookup_eq_map h).length_eq, List.length_map]

theorem size_insert_of_lookup_eq_none {t : Table α β} {a : α} (h : t.lookup a = none) (b : β) :
    size (t.insert a b) = size t + 1 := by
  unfold size
  rw [AList.entries_insert_of_notMem (AList.lookup_eq_none.1 h), List.length_cons]

def weight (f : α → β → Nat) (t : Table α β) (a : α) : Nat := ((t.lookup a).map (f a)).getD 0

theorem entries_erase (t : Table α β) (a : α) : (t.erase a).entries = t.entries.kerase a := rfl

theorem total_erase (f : α → β → Nat) (t : Table α β) (a : α) :
    total f (t.erase a) + weight f t a = total f t := by
  unfold weight
  cases h : t.lookup a with
  | none =>
    have hnot : a ∉ t.entries.keys := AList.lookup_eq_none.1 h
    simp [total, entries_erase, List.kerase_of_notMem_keys hnot]
  | some b =>
    have hmem : a ∈ t.entries.keys := AList.lookup_isSome.1 (by rw [h]; rfl)
    obtain ⟨b', l₁, l₂, _, hentries, herase⟩ := List.exists_of_kerase hmem
    have hb : b' ∈ t.lookup a := AList.mem_lookup_iff.2 (by simp [hentries])
    obtain rfl : b = b' := Option.some.inj (h.symm.trans hb)
    unfold total
    rw [entries_erase, herase, hentries]
    simp only [List.map_append, List.map_cons, List.sum_append, List.sum_cons, Option.map_some,
      Option.getD_some]
    omega

theorem total_insert (f : α → β → Nat) (t : Table α β) (a : α) (b : β) :
    total f (t.insert a b) + weight f t a = total f t + f a b := by
  have herase := total_erase f t a
  have hinsert : total f (t.insert a b) = f a b + total f (t.erase a) := by
    simp [total, AList.entries_insert, entries_erase]
  omega

end

end Table

end Lib
