import Mathlib.Data.List.Nodup
import Mathlib.Tactic

/-!
# Dictionaries in insertion order

The map of a scripting language: entries are listed in the order in which their keys came, a key
that is set again keeps its place, and a key that is removed and set again goes to the end. Each
operation comes with what it does to `get?`.
-/

namespace Lib

structure Dict (α β : Type*) where
  entries : List (α × β)
  nodup : (entries.map Prod.fst).Nodup

namespace Dict

variable {α β γ : Type*}

def empty : Dict α β := ⟨[], List.nodup_nil⟩

def size (d : Dict α β) : Nat := d.entries.length

def keys (d : Dict α β) : List α := d.entries.map Prod.fst

def values (d : Dict α β) : List β := d.entries.map Prod.snd

def filter (p : α → β → Bool) (d : Dict α β) : Dict α β where
  entries := d.entries.filter fun e => p e.1 e.2
  nodup := d.nodup.sublist (List.filter_sublist.map _)

def mapValues (f : β → γ) (d : Dict α β) : Dict α γ where
  entries := d.entries.map fun e => (e.1, f e.2)
  nodup := by
    rw [List.map_map]
    exact d.nodup

theorem ext_entries {d d' : Dict α β} (h : d.entries = d'.entries) : d = d' := by
  cases d
  cases d'
  cases h
  rfl

theorem size_mapValues (f : β → γ) (d : Dict α β) : (d.mapValues f).size = d.size :=
  List.length_map _

theorem filter_mapValues (f : β → γ) (p : α → γ → Bool) (d : Dict α β) :
    (d.mapValues f).filter p = (d.filter fun a b => p a (f b)).mapValues f := by
  apply ext_entries
  simp only [filter, mapValues, List.filter_map]
  rfl

variable [DecidableEq α]

def get? (d : Dict α β) (a : α) : Option β := (d.entries.find? fun e => e.1 = a).map Prod.snd

def contains (d : Dict α β) (a : α) : Bool := (d.get? a).isSome

def erase (d : Dict α β) (a : α) : Dict α β := d.filter fun a' _ => a' ≠ a

def set (d : Dict α β) (a : α) (b : β) : Dict α β where
  entries :=
    if a ∈ d.keys then d.entries.map fun e => if e.1 = a then (a, b) else e
    else d.entries ++ [(a, b)]
  nodup := by
    split_ifs with hmem
    · have hkeys : Prod.fst ∘ (fun e : α × β => if e.1 = a then (a, b) else e) = Prod.fst := by
        funext e
        by_cases he : e.1 = a <;> simp [he]
      rw [List.map_map, hkeys]
      exact d.nodup
    · rw [List.map_append, List.map_singleton]
      exact List.nodup_append.2 ⟨d.nodup, List.nodup_singleton _, by
        intro k hk k' hk' heq
        rw [heq, List.mem_singleton.1 hk'] at hk
        exact hmem hk⟩

variable {d : Dict α β} {a a' : α} {b : β}

theorem mem_entries_iff : (a, b) ∈ d.entries ↔ d.get? a = some b := by
  obtain ⟨entries, hnodup⟩ := d
  simp only [get?]
  induction entries with
  | nil => simp
  | cons e rest ih =>
    obtain ⟨hnot, hrest⟩ := List.nodup_cons.1 hnodup
    rw [List.mem_cons, List.find?_cons, ih hrest]
    by_cases he : e.1 = a
    · have hnone : rest.find? (fun e => decide (e.1 = a)) = none := by
        rw [List.find?_eq_none]
        intro x hx hxa
        exact hnot (he ▸ of_decide_eq_true hxa ▸ List.mem_map_of_mem hx)
      simp only [he, decide_true, hnone, Option.map_some, Option.map_none, Option.some.injEq,
        reduceCtorEq, or_false]
      constructor
      · intro h
        rw [← h]
      · intro h
        rw [← he, ← h]
    · simp only [he, decide_false]
      constructor
      · rintro (h | h)
        · exact absurd (congrArg Prod.fst h).symm he
        · exact h
      · exact .inr

theorem mem_keys_iff : a ∈ d.keys ↔ (d.get? a).isSome = true := by
  rw [keys, Option.isSome_iff_exists, List.mem_map]
  constructor
  · rintro ⟨⟨a', b⟩, hmem, rfl⟩
    exact ⟨b, mem_entries_iff.1 hmem⟩
  · rintro ⟨b, hget⟩
    exact ⟨(a, b), mem_entries_iff.2 hget, rfl⟩

theorem filter_congr {p q : α → β → Bool} (h : ∀ a b, d.get? a = some b → p a b = q a b) :
    d.filter p = d.filter q :=
  ext_entries (List.filter_congr fun e he => h e.1 e.2 (mem_entries_iff.1 he))

theorem get?_filter (p : α → β → Bool) (d : Dict α β) (a : α) :
    (d.filter p).get? a = (d.get? a).filter (p a) := by
  ext b
  rw [← mem_entries_iff, Option.filter_eq_some_iff, ← mem_entries_iff]
  simp only [filter, List.mem_filter]

theorem get?_mapValues (f : β → γ) (d : Dict α β) (a : α) :
    (d.mapValues f).get? a = (d.get? a).map f := by
  simp only [get?, mapValues, List.find?_map, Option.map_map]
  rfl

theorem get?_erase_self (d : Dict α β) (a : α) : (d.erase a).get? a = none := by
  rw [erase, get?_filter]
  cases d.get? a <;> simp

theorem get?_erase_of_ne (d : Dict α β) (h : a' ≠ a) : (d.erase a).get? a' = d.get? a' := by
  rw [erase, get?_filter]
  cases d.get? a' <;> simp [h]

theorem get?_set_self (d : Dict α β) (a : α) (b : β) : (d.set a b).get? a = some b := by
  rw [← mem_entries_iff, set]
  dsimp only
  split_ifs with hmem
  · obtain ⟨e, he, hea⟩ := List.mem_map.1 hmem
    exact List.mem_map.2 ⟨e, he, if_pos hea⟩
  · exact List.mem_append_right _ List.mem_cons_self

theorem get?_set_of_ne (d : Dict α β) (b : β) (h : a' ≠ a) : (d.set a b).get? a' = d.get? a' := by
  ext b'
  rw [← mem_entries_iff, ← mem_entries_iff, set]
  dsimp only
  split_ifs with hmem
  · rw [List.mem_map]
    constructor
    · rintro ⟨e, he, heq⟩
      split_ifs at heq with hea
      · exact absurd (congrArg Prod.fst heq).symm h
      · rwa [← heq]
    · intro he
      exact ⟨(a', b'), he, if_neg h⟩
  · rw [List.mem_append, List.mem_singleton]
    constructor
    · rintro (he | heq)
      · exact he
      · exact absurd (congrArg Prod.fst heq) h
    · exact .inl

theorem set_mapValues (f : β → γ) (d : Dict α β) (a : α) (b : β) :
    (d.mapValues f).set a (f b) = (d.set a b).mapValues f := by
  have hkeys : (d.mapValues f).keys = d.keys := by
    simp only [keys, mapValues, List.map_map]
    rfl
  apply ext_entries
  simp only [set, hkeys]
  split_ifs with hmem
  · simp only [mapValues, List.map_map]
    congr 1
    funext e
    by_cases he : e.1 = a <;> simp [he]
  · simp [mapValues]

theorem foldl_erase (ks : List α) (d : Dict α β) :
    ks.foldl erase d = d.filter fun a _ => decide (a ∉ ks) := by
  induction ks generalizing d with
  | nil =>
    apply ext_entries
    simp [filter]
  | cons k ks ih =>
    rw [List.foldl_cons, ih]
    apply ext_entries
    simp only [filter, erase, List.filter_filter, List.mem_cons, not_or]
    congr 1
    funext e
    by_cases he : e.1 = k <;> simp [he]

theorem foldl_erase_filter (p : α → β → Bool) (d : Dict α β) :
    ((d.filter p).keys.foldl erase d) = d.filter fun a b => !p a b := by
  have hkeys : ∀ e ∈ d.entries, decide (e.1 ∉ (d.filter p).keys) = !p e.1 e.2 := by
    rintro ⟨a, b⟩ hmem
    simp only [mem_keys_iff, get?_filter, mem_entries_iff.1 hmem, Option.filter_some]
    cases p a b <;> rfl
  rw [foldl_erase]
  exact ext_entries (List.filter_congr hkeys)

/-- Removing in a loop over entries, and counting what goes. -/
theorem foldl_count_erase (p : α × β → Bool) (es : List (α × β)) (n : Nat) (d : Dict α β) :
    es.foldl (fun (acc : Nat × Dict α β) e =>
        if p e then (acc.1 + 1, acc.2.erase e.1) else acc) (n, d)
      = (n + (es.filter p).length, ((es.filter p).map Prod.fst).foldl erase d) := by
  induction es generalizing n d with
  | nil => rfl
  | cons e es ih =>
    rw [List.foldl_cons]
    by_cases hp : p e = true
    · rw [if_pos hp, ih, List.filter_cons_of_pos hp, List.length_cons, List.map_cons,
        List.foldl_cons]
      congr 1
      omega
    · rw [if_neg hp, ih, List.filter_cons_of_neg hp]

end Dict

end Lib
