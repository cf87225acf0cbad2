import McpRe.Http.Digest

/-!
# Positions in a JSON value

A position is a list of steps from the root, through members by name and through elements by index.
`Json.locate` is the value at a position. An object of `serde_json` is a map, so no name occurs
twice in it: `Json.distinct` says so of every object of a value.
-/

namespace McpRe.Http

open Lib Lib.Text

inductive Step where
  | member (name : Str)
  | index (i : Nat)
  deriving DecidableEq, Repr

namespace Json

def step : Json → Step → Option Json
  | object fields, .member name => (fields.find? fun kv => kv.1 == name).map Prod.snd
  | array items, .index i => items[i]?
  | _, _ => none

def locate (v : Json) : List Step → Option Json
  | [] => some v
  | s :: p => (v.step s).bind fun child => child.locate p

@[simp]
theorem locate_nil (v : Json) : v.locate [] = some v := rfl

theorem locate_cons (v : Json) (s : Step) (p : List Step) :
    v.locate (s :: p) = (v.step s).bind fun child => child.locate p := rfl

theorem locate_singleton (v : Json) (s : Step) : v.locate [s] = v.step s := by
  rw [locate_cons]
  cases v.step s <;> rfl

theorem locate_append (v : Json) (p q : List Step) :
    v.locate (p ++ q) = (v.locate p).bind fun child => child.locate q := by
  induction p generalizing v with
  | nil => rfl
  | cons s p ih =>
    rw [List.cons_append, locate_cons, locate_cons, Option.bind_assoc]
    congr 1
    funext child
    exact ih child

theorem exists_step_of_locate {v : Json} {s : Step} {p : List Step}
    (h : (v.locate (s :: p)).isSome) : ∃ child, v.step s = some child ∧ (child.locate p).isSome := by
  rw [locate_cons] at h
  cases hs : v.step s with
  | none =>
    rw [hs] at h
    cases h
  | some child =>
    rw [hs] at h
    exact ⟨child, rfl, h⟩

theorem get_eq_step (v : Json) (key : String) : v.get key = v.step (.member key.toList) := by
  cases v <;> rfl

theorem step_member_cons {name : Str} {child : Json} {rest : List (Str × Json)} {n : Str} :
    (object ((name, child) :: rest)).step (.member n)
      = if name = n then some child else (object rest).step (.member n) := by
  by_cases h : name = n
  · simp [step, h]
  · simp [step, h]

theorem step_member_eq_none {fields : List (Str × Json)} {n : Str}
    (h : n ∉ fields.map Prod.fst) : (object fields).step (.member n) = none := by
  simp only [step, Option.map_eq_none_iff, List.find?_eq_none]
  intro kv hkv heq
  exact h (List.mem_map.2 ⟨kv, hkv, eq_of_beq heq⟩)

theorem step_member_iff {fields : List (Str × Json)} (hnodup : (fields.map Prod.fst).Nodup)
    {n : Str} {child : Json} :
    (object fields).step (.member n) = some child ↔ (n, child) ∈ fields := by
  induction fields with
  | nil => simp [step]
  | cons kv rest ih =>
    obtain ⟨name, first⟩ := kv
    rw [List.map_cons, List.nodup_cons] at hnodup
    rw [step_member_cons, List.mem_cons, Prod.mk.injEq]
    by_cases hname : name = n
    · subst hname
      have hrest : (name, child) ∉ rest := fun h => hnodup.1 (List.mem_map.2 ⟨_, h, rfl⟩)
      simp [hrest, eq_comm]
    · rw [if_neg hname, ih hnodup.2]
      simp [Ne.symm hname]

/-- Induction on a value, with the hypothesis at every member and every element. -/
theorem ind {motive : Json → Prop} (null : motive null) (bool : ∀ b, motive (bool b))
    (number : ∀ text, motive (number text)) (string : ∀ s, motive (string s))
    (array : ∀ items, (∀ v ∈ items, motive v) → motive (array items))
    (object : ∀ fields, (∀ kv ∈ fields, motive kv.2) → motive (object fields)) (v : Json) :
    motive v := by
  match v with
  | .null => exact null
  | .bool b => exact bool b
  | .number text => exact number text
  | .string s => exact string s
  | .array items => exact array items fun v _ => ind null bool number string array object v
  | .object fields =>
    exact object fields fun kv hkv => ind null bool number string array object kv.2
termination_by sizeOf v
decreasing_by
  · rename_i hv
    have := List.sizeOf_lt_of_mem hv
    simp only [Json.array.sizeOf_spec]
    omega
  · have hlt := List.sizeOf_lt_of_mem hkv
    obtain ⟨k, child⟩ := kv
    simp only [Json.object.sizeOf_spec, Prod.mk.sizeOf_spec] at hlt ⊢
    omega

mutual

/-- Every object of the value has each name once. -/
def distinct : Json → Bool
  | object fields => decide (fields.map Prod.fst).Nodup && distinctMembers fields
  | array items => distinctItems items
  | _ => true

def distinctMembers : List (Str × Json) → Bool
  | [] => true
  | (_, child) :: rest => child.distinct && distinctMembers rest

def distinctItems : List Json → Bool
  | [] => true
  | child :: rest => child.distinct && distinctItems rest

end

theorem distinctMembers_iff {fields : List (Str × Json)} :
    distinctMembers fields = true ↔ ∀ kv ∈ fields, kv.2.distinct = true := by
  induction fields with
  | nil => simp [distinctMembers]
  | cons kv rest ih => simp [distinctMembers, ih]

theorem distinctItems_iff {items : List Json} :
    distinctItems items = true ↔ ∀ v ∈ items, v.distinct = true := by
  induction items with
  | nil => simp [distinctItems]
  | cons v rest ih => simp [distinctItems, ih]

theorem distinct_object {fields : List (Str × Json)} :
    (object fields).distinct = true ↔
      (fields.map Prod.fst).Nodup ∧ ∀ kv ∈ fields, kv.2.distinct = true := by
  simp [distinct, distinctMembers_iff]

mutual

def depth : Json → Nat
  | object fields => depthMembers fields + 1
  | array items => depthItems items + 1
  | _ => 0

def depthMembers : List (Str × Json) → Nat
  | [] => 0
  | (_, child) :: rest => max child.depth (depthMembers rest)

def depthItems : List Json → Nat
  | [] => 0
  | child :: rest => max child.depth (depthItems rest)

end

theorem depthMembers_le {fields : List (Str × Json)} {n : Nat} :
    depthMembers fields ≤ n ↔ ∀ kv ∈ fields, kv.2.depth ≤ n := by
  induction fields with
  | nil => simp [depthMembers]
  | cons kv rest ih => simp [depthMembers, ih]

theorem depthItems_le {items : List Json} {n : Nat} :
    depthItems items ≤ n ↔ ∀ v ∈ items, v.depth ≤ n := by
  induction items with
  | nil => simp [depthItems]
  | cons v rest ih => simp [depthItems, ih]

theorem distinct_of_step {v child : Json} {s : Step} (hv : v.distinct = true)
    (hs : v.step s = some child) : child.distinct = true := by
  cases v with
  | object fields =>
    cases s with
    | member name =>
      obtain ⟨kv, hfind, rfl⟩ := Option.map_eq_some_iff.1 hs
      exact (distinct_object.1 hv).2 kv (List.mem_of_find?_eq_some hfind)
    | index i => cases hs
  | array items =>
    cases s with
    | member name => cases hs
    | index i => exact distinctItems_iff.1 hv child (List.mem_of_getElem? hs)
  | _ => cases s <;> cases hs

theorem distinct_of_locate {v x : Json} {p : List Step} (hv : v.distinct = true)
    (hp : v.locate p = some x) : x.distinct = true := by
  induction p generalizing v with
  | nil =>
    cases hp
    exact hv
  | cons s p ih =>
    obtain ⟨child, hs, hchild⟩ := Option.bind_eq_some_iff.1 hp
    exact ih (distinct_of_step hv hs) hchild

end Json

end McpRe.Http
