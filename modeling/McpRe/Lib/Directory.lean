import Mathlib.Tactic

/-!
# A directory that may lose changes

A directory takes atomic changes of some of its names. A change is seen at once and durable only
once the directory has been synced; when the machine stops, any of the changes that were not synced
may be there afterwards, in the order they were made.
-/

namespace Lib.Directory

variable {π β : Type*} [DecidableEq π]

/-- An atomic change: the new content of some names, `none` where the name is removed. -/
abbrev Change (π β : Type*) := List (π × Option β)

def Change.apply (change : Change π β) (content : π → Option β) : π → Option β :=
  change.foldl (fun content kv => Function.update content kv.1 kv.2) content

def applyAll (changes : List (Change π β)) (content : π → Option β) : π → Option β :=
  changes.foldl (fun content change => change.apply content) content

/-- What is durable, and the changes since in their order. -/
structure Disk (π β : Type*) where
  durable : π → Option β
  unsynced : List (Change π β)

namespace Disk

def empty : Disk π β := ⟨fun _ => none, []⟩

/-- What a reader sees. -/
def view (disk : Disk π β) : π → Option β := applyAll disk.unsynced disk.durable

def push (disk : Disk π β) (change : Change π β) : Disk π β :=
  { disk with unsynced := disk.unsynced ++ [change] }

def sync (disk : Disk π β) : Disk π β := ⟨disk.view, []⟩

/-- The changes a mask keeps. -/
def survivors : List Bool → List (Change π β) → List (Change π β)
  | true :: mask, change :: changes => change :: survivors mask changes
  | false :: mask, _ :: changes => survivors mask changes
  | _, _ => []

/-- The machine stops; the changes that were not synced survive where the mask says so. -/
def crash (disk : Disk π β) (mask : List Bool) : Disk π β :=
  ⟨applyAll (survivors mask disk.unsynced) disk.durable, []⟩

end Disk

end Lib.Directory
