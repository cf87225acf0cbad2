import Mathlib.Tactic

/-!
# A folder that is listed while it changes

A folder holds names. A name that was created is kept over a crash once the folder has been synced;
until then a crash may lose it. A listing goes on while names are created and removed: it returns
every name that is there from its start to its end, and may return or leave out a name that is
created or removed meanwhile.

* `mem_names_create`, `mem_names_remove`: what an operation leaves of the names;
* `Kept`: what no crash loses, with what each operation leaves of it;
* `mem_due_of_next`: what is returned is no longer due, and nothing else changes.
-/

namespace Lib

structure Folder (α : Type*) where
  names : List α
  /-- The names whose creation is not synced. -/
  unsynced : List α

/-- A listing in progress. -/
structure Listing (α : Type*) where
  /-- There since the start, and not returned yet. -/
  due : List α
  /-- There at some time since the start, and not returned yet. -/
  offered : List α

variable {α : Type*} [DecidableEq α]

namespace Folder

def create (f : Folder α) (name : α) : Folder α where
  names := name :: f.names
  unsynced := name :: f.unsynced

def remove (f : Folder α) (name : α) : Folder α where
  names := f.names.filter (· ≠ name)
  unsynced := f.unsynced.filter (· ≠ name)

def sync (f : Folder α) : Folder α := { f with unsynced := [] }

def crash (f : Folder α) (lost : List α) : Folder α where
  names := f.names.filter fun name => !(f.unsynced.contains name && lost.contains name)
  unsynced := []

/-- There, and not lost in a crash. -/
def Kept (f : Folder α) (name : α) : Prop := name ∈ f.names ∧ name ∉ f.unsynced

variable {f : Folder α} {name other : α}

omit [DecidableEq α] in
theorem mem_names_create (h : name ∈ f.names) : name ∈ (f.create other).names :=
  List.mem_cons_of_mem _ h

theorem mem_names_remove : name ∈ (f.remove other).names ↔ name ∈ f.names ∧ name ≠ other := by
  simp [remove]

omit [DecidableEq α] in
theorem Kept.create (h : f.Kept name) (hnew : other ∉ f.names) : (f.create other).Kept name := by
  refine ⟨mem_names_create h.1, fun hmem => ?_⟩
  rcases List.mem_cons.1 hmem with rfl | hmem
  · exact hnew h.1
  · exact h.2 hmem

theorem Kept.remove (h : f.Kept name) (hne : name ≠ other) : (f.remove other).Kept name := by
  refine ⟨mem_names_remove.2 ⟨h.1, hne⟩, fun hmem => ?_⟩
  exact h.2 (List.mem_of_mem_filter hmem)

omit [DecidableEq α] in
theorem kept_sync (h : name ∈ f.names) : f.sync.Kept name := ⟨h, List.not_mem_nil⟩

theorem Kept.crash (h : f.Kept name) (lost : List α) : (f.crash lost).Kept name := by
  refine ⟨List.mem_filter.2 ⟨h.1, ?_⟩, List.not_mem_nil⟩
  simp [h.2]

end Folder

namespace Listing

def start (f : Folder α) : Listing α := ⟨f.names, f.names⟩

def created (l : Listing α) (name : α) : Listing α := { l with offered := name :: l.offered }

def removed (l : Listing α) (name : α) : Listing α := { l with due := l.due.filter (· ≠ name) }

/-- The listing returns a name it may. -/
def next (l : Listing α) (name : α) : Option (Listing α) :=
  if name ∈ l.offered then
    some ⟨l.due.filter (· ≠ name), l.offered.filter (· ≠ name)⟩
  else none

/-- May the listing end here? -/
def ends (l : Listing α) : Bool := l.due.isEmpty

variable {l l' : Listing α} {name other : α}

theorem mem_due_of_next (h : l.next other = some l') (hmem : name ∈ l.due) (hne : name ≠ other) :
    name ∈ l'.due := by
  unfold next at h
  split_ifs at h
  obtain rfl := Option.some.inj h
  exact List.mem_filter.2 ⟨hmem, by simpa using hne⟩

end Listing

end Lib
