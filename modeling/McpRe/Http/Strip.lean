import McpRe.Http.Block

/-!
# The reserved-field guard

`strip_proxy_owned_meta` (`context/reserved_key_strip.rs`): the `_meta` keys the enforcement point
owns are removed from every `_meta` object of a body, and the positions from which the
verified-context key was removed are reported (`context/seeded_meta_positions.rs`). Printing a value
is a parameter, as parsing is.
-/

namespace McpRe.Http

open Lib Lib.Result Lib.Text

def verifiedContextBlockKey : String := "se.syncom/mcp-re.verified-context"

/-! ## The report -/

structure SeededMetaPositions where
  paths : List Str
  deriving DecidableEq, Repr

namespace SeededMetaPositions

variable (s : SeededMetaPositions)

def any : Bool := !s.paths.isEmpty

def names (wanted : List String) : Bool :=
  s.paths.any fun path => (wanted.map String.toList).contains path

def topLevel : Bool := s.names ["_meta"]

def paramsObject : Bool := s.names ["params._meta"]

end SeededMetaPositions

/-! ## One `_meta` object -/

/-- The members of a `serde_json::Map`. -/
abbrev Members := List (Str × Json)

/-- `Map::remove`: the members left, and whether there was one to remove. -/
def Members.remove (map : Members) (key : String) : Members × Bool :=
  (map.filter fun kv => !(kv.1 == key.toList), map.any fun kv => kv.1 == key.toList)

/-- The map after a write through `Map::get_mut`. -/
def Members.set (key : String) (value : Json) : Members → Members
  | [] => []
  | kv :: rest =>
    if kv.1 == key.toList then (kv.1, value) :: rest else kv :: Members.set key value rest

/-- `strip_meta_of`: the container, and whether the verified-context key had been seeded there. -/
def stripMetaOf (container : Members) : Members × Bool :=
  match (Json.object container).get "_meta" with
  | some (.object found) =>
    let (kept, removedEvidence) := Members.remove found requestEvidenceBlockKey
    let (kept, seeded) := Members.remove kept verifiedContextBlockKey
    if (removedEvidence || seeded) && kept.isEmpty then ((Members.remove container "_meta").1, seeded)
    else (Members.set "_meta" (.object kept) container, seeded)
  | _ => (container, false)

/-! ## The descent -/

def memberPath (parent key : Str) : Str :=
  if parent.isEmpty then key else parent ++ '.' :: key

/-- `path[index]`. -/
def elementPath (path : Str) (index : Nat) : Str :=
  path ++ '[' :: Nat.toDigits 10 index ++ [']']

theorem sizeOf_filter_le (keep : Str × Json → Bool) (map : Members) :
    sizeOf (map.filter keep) ≤ sizeOf map := by
  induction map with
  | nil => simp
  | cons kv rest ih =>
    rw [List.filter_cons]
    split_ifs
    · simpa using ih
    · rw [List.cons.sizeOf_spec]
      omega

/-- Writing a smaller value does not make the map larger. -/
theorem sizeOf_set_le {map : Members} {key : String} {value old : Json}
    (hget : (Json.object map).get key = some old) (hle : sizeOf value ≤ sizeOf old) :
    sizeOf (Members.set key value map) ≤ sizeOf map := by
  induction map with
  | nil => cases hget
  | cons kv rest ih =>
    obtain ⟨k, child⟩ := kv
    rw [Members.set]
    split_ifs with hk
    · obtain rfl : child = old := by simpa [Json.get, hk] using hget
      simp only [List.cons.sizeOf_spec, Prod.mk.sizeOf_spec]
      omega
    · have hrest : (Json.object rest).get key = some old := by simpa [Json.get, hk] using hget
      have := ih hrest
      simp only [List.cons.sizeOf_spec]
      omega

theorem sizeOf_stripMetaOf_le (container : Members) :
    sizeOf (stripMetaOf container).1 ≤ sizeOf container := by
  unfold stripMetaOf
  split
  · rename_i found hget
    simp only
    split_ifs
    · exact sizeOf_filter_le _ _
    · apply sizeOf_set_le hget
      have hfirst := sizeOf_filter_le (fun kv => !(kv.1 == requestEvidenceBlockKey.toList)) found
      have hsecond := sizeOf_filter_le (fun kv => !(kv.1 == verifiedContextBlockKey.toList))
        (found.filter fun kv => !(kv.1 == requestEvidenceBlockKey.toList))
      simp only [Json.object.sizeOf_spec, Members.remove]
      omega
  · exact le_rfl

mutual

/-- Walk one value: the value left, and the positions found at or below `path`. -/
def stripDescendantMeta (path : Str) : Json → Json × List Str
  | .object map =>
    let (map, found) := stripObject path map
    (.object map, found)
  | .array elements =>
    let (elements, found) := stripElements path 0 elements
    (.array elements, found)
  | value => (value, [])
termination_by value => 2 * sizeOf value

/-- This object's own `_meta`, then every member. -/
def stripObject (path : Str) (map : Members) : Members × List Str :=
  let below := stripMembers path (stripMetaOf map).1
  (below.1, (if (stripMetaOf map).2 then [memberPath path "_meta".toList] else []) ++ below.2)
termination_by 2 * sizeOf map + 1
decreasing_by
  have := sizeOf_stripMetaOf_le map
  omega

/-- The loop over the members of an object. -/
def stripMembers (path : Str) : Members → Members × List Str
  | [] => ([], [])
  | (key, child) :: rest =>
    let (child, found) := stripDescendantMeta (memberPath path key) child
    let (rest, more) := stripMembers path rest
    ((key, child) :: rest, found ++ more)
termination_by map => 2 * sizeOf map

/-- The loop over the elements of an array, from `index` on. -/
def stripElements (path : Str) (index : Nat) : List Json → List Json × List Str
  | [] => ([], [])
  | child :: rest =>
    let (child, found) := stripDescendantMeta (elementPath path index) child
    let (rest, more) := stripElements path (index + 1) rest
    (child :: rest, found ++ more)
termination_by elements => 2 * sizeOf elements

end

/-! ## The guard -/

structure StrippedBody where
  body : Bytes
  seeded : SeededMetaPositions
  deriving DecidableEq, Repr

/-- `refuse_unwalkable_shape`. -/
def refuseUnwalkableShape (value : Json) : Verdict Unit :=
  match value with
  | .object _ =>
    match value.get "params" with
    | none | some (.object _) | some (.array _) => .ok ()
    | some _ => .error (malformed "request params is neither an object nor an array")
  | _ => .error (malformed "request body is not a JSON object")

def stripProxyOwnedMeta (P : Platform) (toVec : Json → Option Bytes) (body : Bytes) :
    Verdict StrippedBody := do
  let value ← okOr (P.fromSlice body) (malformed "request body is not JSON")
  refuseUnwalkableShape value
  let (value, found) := stripDescendantMeta [] value
  let body ← okOr (toVec value) (malformed "body reserialize")
  .ok ⟨body, ⟨found⟩⟩

end McpRe.Http
