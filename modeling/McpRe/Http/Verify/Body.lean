import McpRe.Http.Body
import McpRe.Http.Verify.JsonPath

/-!
# What a written block leaves in a body

`insert_meta_block` prints the body it read with one member more. With `serde_json` faithful, the
block is read out of the printed body by `extract_meta_block` as it was written, and every other
member of the body and of its `_meta` is the one that was there.
-/

namespace McpRe.Http

open Lib Lib.Result Lib.Text

/-! ## Equality of values -/

namespace Json

mutual

def same : Json → Json → Bool
  | null, null => true
  | bool a, bool b => a == b
  | number a, number b => a == b
  | string a, string b => a == b
  | array xs, array ys => sameItems xs ys
  | object xs, object ys => sameMembers xs ys
  | _, _ => false

def sameItems : List Json → List Json → Bool
  | [], [] => true
  | x :: xs, y :: ys => same x y && sameItems xs ys
  | _, _ => false

def sameMembers : List (Str × Json) → List (Str × Json) → Bool
  | [], [] => true
  | (k, x) :: xs, (l, y) :: ys => k == l && same x y && sameMembers xs ys
  | _, _ => false

end

theorem sameItems_iff {xs : List Json} (h : ∀ x ∈ xs, ∀ y, same x y = true ↔ x = y)
    (ys : List Json) : sameItems xs ys = true ↔ xs = ys := by
  induction xs generalizing ys with
  | nil => cases ys <;> simp [sameItems]
  | cons x xs ih =>
    cases ys with
    | nil => simp [sameItems]
    | cons y ys =>
      rw [sameItems, Bool.and_eq_true, h x List.mem_cons_self,
        ih (fun z hz => h z (List.mem_cons_of_mem _ hz)), List.cons.injEq]

theorem sameMembers_iff {xs : List (Str × Json)} (h : ∀ kv ∈ xs, ∀ y, same kv.2 y = true ↔ kv.2 = y)
    (ys : List (Str × Json)) : sameMembers xs ys = true ↔ xs = ys := by
  induction xs generalizing ys with
  | nil => cases ys <;> simp [sameMembers]
  | cons kv xs ih =>
    cases ys with
    | nil => simp [sameMembers]
    | cons lw ys =>
      rw [sameMembers, Bool.and_eq_true, Bool.and_eq_true, beq_iff_eq, h kv List.mem_cons_self,
        ih (fun z hz => h z (List.mem_cons_of_mem _ hz)), List.cons.injEq, Prod.ext_iff]

theorem same_iff (v w : Json) : same v w = true ↔ v = w := by
  induction v using Json.ind generalizing w with
  | null => cases w <;> simp [same]
  | bool b => cases w <;> simp [same]
  | number text => cases w <;> simp [same]
  | string s => cases w <;> simp [same]
  | array items ih =>
    cases w with
    | array ys => rw [same, sameItems_iff ih, array.injEq]
    | _ => simp [same]
  | object fields ih =>
    cases w with
    | object ys => rw [same, sameMembers_iff ih, object.injEq]
    | _ => simp [same]

instance : DecidableEq Json := fun v w => decidable_of_iff _ (same_iff v w)

/-! ## Printed members read back -/

theorem asI64_ofI64 (n : I64) : asI64 (ofI64 n) = some n := by
  have hzero : n.display ≠ ['-', '0'] := by
    intro heq
    have hread := I64.fromStr_display n
    rw [heq, show I64.fromStr ['-', '0'] = some 0 from rfl] at hread
    obtain rfl := Option.some.inj hread
    exact absurd heq (by decide)
  rw [ofI64, asI64, if_neg hzero, I64.fromStr_display]

theorem asU64_ofU64 {n : Nat} (h : n < 2 ^ 64) : asU64 (ofU64 n) = some n := by
  rw [ofU64, asU64, I64.isDigits_toDigits, Nat.ofDigitChars_ten_toDigits, Bool.true_and,
    if_pos (decide_eq_true h)]

theorem get_field (name name' : String) (value : Json) (rest : List (Str × Json)) :
    (object (field name' value :: rest)).get name
      = if name' = name then some value else (object rest).get name := by
  by_cases heq : name' = name
  · simp [get, field, heq]
  · have hne : name'.toList ≠ name.toList := fun h => heq (String.toList_inj.1 h)
    simp [get, field, heq, hne]

end Json

/-! ## `Map::insert` -/

theorem step_insert_self (key : Str) (value : Json) (map : Members) :
    (Json.object (Members.insert key value map)).step (.member key) = some value := by
  induction map with
  | nil => simp [Members.insert, Json.step]
  | cons kv rest ih =>
    rw [Members.insert]
    split_ifs with hkey hlt
    · simp [Json.step]
    · simp [Json.step]
    · rw [Json.step_member_cons, if_neg (by simpa using hkey)]
      exact ih

theorem mem_insert {key : Str} {value : Json} {map : Members} {kv : Str × Json}
    (h : kv ∈ Members.insert key value map) : kv = (key, value) ∨ kv ∈ map := by
  induction map with
  | nil => simpa [Members.insert] using h
  | cons old rest ih =>
    rw [Members.insert] at h
    split_ifs at h
    · rcases List.mem_cons.1 h with h | h
      · exact .inl h
      · exact .inr (List.mem_cons_of_mem _ h)
    · exact List.mem_cons.1 h
    · rcases List.mem_cons.1 h with h | h
      · exact .inr (h ▸ List.mem_cons_self)
      · exact (ih h).imp_right (List.mem_cons_of_mem _)

theorem depthMembers_insert_le (key : Str) (value : Json) (map : Members) :
    Json.depthMembers (Members.insert key value map)
      ≤ max value.depth (Json.depthMembers map) := by
  rw [Json.depthMembers_le]
  intro kv hkv
  rcases mem_insert hkv with rfl | hkv
  · exact le_max_left _ _
  · exact (Json.depthMembers_le.1 le_rfl kv hkv).trans (le_max_right _ _)

/-! ## The printed body -/

/-- The nesting up to which `serde_json` parses. -/
def recursionLimit : Nat := 127

/-- What `serde_json` is relied on for: a parsed value is within the nesting limit, and a printed
one within the limit is read back. -/
structure Carrier (P : Platform) (sd : Serde) : Prop where
  parsed : ∀ b v, P.fromSlice b = some v → v.depth ≤ recursionLimit
  read_back : ∀ w text, w.depth ≤ recursionLimit → sd.toVec w = some text →
    P.fromSlice text = some w

def tableSerde (documents : List (Bytes × Json)) : Serde where
  toVec w := (documents.find? fun d => d.2 == w).map Prod.fst
  readString _ := none
  emitDecimal _ := none

theorem carrier_tableSerde {P : Platform} {documents : List (Bytes × Json)}
    (hfrom : ∀ b, P.fromSlice b = (documents.find? fun d => d.1 == b).map Prod.snd)
    (htexts : (documents.map Prod.fst).Nodup)
    (hdepth : ∀ d ∈ documents, d.2.depth ≤ recursionLimit) : Carrier P (tableSerde documents) where
  parsed := by
    intro b v hv
    rw [hfrom] at hv
    obtain ⟨d, hd, rfl⟩ := Option.map_eq_some_iff.1 hv
    exact hdepth d (List.mem_of_find?_eq_some hd)
  read_back := by
    intro w text _ hw
    obtain ⟨d, hd, rfl⟩ := Option.map_eq_some_iff.1 hw
    have hmem := List.mem_of_find?_eq_some hd
    have hvalue : d.2 = w := by simpa using List.find?_some hd
    rw [hfrom]
    cases hfound : documents.find? fun e => e.1 == d.1 with
    | none => exact absurd (beq_self_eq_true d.1) (List.find?_eq_none.1 hfound d hmem)
    | some e =>
      have htext : e.1 = d.1 := by simpa using List.find?_some hfound
      have heq : e = d := List.inj_on_of_nodup_map htexts (List.mem_of_find?_eq_some hfound) hmem htext
      rw [heq, Option.map_some, hvalue]

def withBlock (key : String) (block : Json) (obj found : Members) : Json :=
  .object (Members.insert "_meta".toList (.object (Members.insert key.toList block found)) obj)

theorem insertMetaBlock_eq_ok {P : Platform} {sd : Serde} {body text : Bytes} {key : String}
    {block : Json} :
    insertMetaBlock P sd body key block = .ok text ↔
      rejectUnrepresentableJson sd body = .ok () ∧ ∃ obj found,
        P.fromSlice body = some (.object obj) ∧
        ((Json.object obj).get "_meta").getD (.object []) = .object found ∧
        sd.toVec (withBlock key block obj found) = some text := by
  rw [insertMetaBlock, bind_eq_ok]
  constructor
  · intro h
    obtain ⟨root, hroot, h⟩ := h
    obtain ⟨⟨⟩, hscan, h⟩ := bind_eq_ok.1 h
    cases root with
    | object obj =>
      dsimp only at h
      split at h
      · next found hfound =>
        exact ⟨hscan, obj, found, okOr_eq_ok.1 hroot, hfound, okOr_eq_ok.1 h⟩
      · cases h
    | _ => cases h
  · intro h
    obtain ⟨hscan, obj, found, hroot, hfound, htext⟩ := h
    refine ⟨.object obj, okOr_eq_ok.2 hroot, ?_⟩
    rw [hscan, ok_bind]
    simp only [hfound]
    exact okOr_eq_ok.2 htext

theorem depth_withBlock_le {key : String} {block : Json} {obj found : Members}
    (hfound : ((Json.object obj).get "_meta").getD (.object []) = .object found) :
    (withBlock key block obj found).depth ≤ max (block.depth + 2) (Json.object obj).depth := by
  have hinner := depthMembers_insert_le key.toList block found
  have houter := depthMembers_insert_le "_meta".toList
    (.object (Members.insert key.toList block found)) obj
  have hmeta : Json.depthMembers found + 1 ≤ max 1 (Json.depthMembers obj) := by
    cases hget : (Json.object obj).get "_meta" with
    | none =>
      rw [hget, Option.getD_none, Json.object.injEq] at hfound
      subst hfound
      exact le_max_left _ _
    | some old =>
      rw [hget, Option.getD_some] at hfound
      subst hfound
      obtain ⟨kv, hkv, heq⟩ := Option.map_eq_some_iff.1 hget
      have hle := Json.depthMembers_le.1 le_rfl kv (List.mem_of_find?_eq_some hkv)
      rw [heq, Json.depth] at hle
      exact hle.trans (le_max_right _ _)
  rw [Json.depth] at houter
  rw [withBlock, Json.depth, Json.depth]
  omega

/-- **A written block is read back as it was written.** -/
theorem extractMetaBlock_of_insert {P : Platform} {sd : Serde} (hcarrier : Carrier P sd)
    {body text : Bytes} {key : String} {block : Json} (hdepth : block.depth + 2 ≤ recursionLimit)
    (h : insertMetaBlock P sd body key block = .ok text) {α : Type} (read : Json → Option α)
    (what : String) :
    extractMetaBlock P read text key what = okOr (read block) (malformed what) := by
  obtain ⟨-, obj, found, hparse, hfound, hprint⟩ := insertMetaBlock_eq_ok.1 h
  have hlimit : (withBlock key block obj found).depth ≤ recursionLimit :=
    (depth_withBlock_le hfound).trans (max_le hdepth (hcarrier.parsed _ _ hparse))
  have hread := hcarrier.read_back _ _ hlimit hprint
  have hmeta : (withBlock key block obj found).get "_meta"
      = some (.object (Members.insert key.toList block found)) := by
    rw [Json.get_eq_step, withBlock, step_insert_self]
  have hblock : (Json.object (Members.insert key.toList block found)).get key = some block := by
    rw [Json.get_eq_step, step_insert_self]
  rw [extractMetaBlock, hread, okOr_some, ok_bind, hmeta, Option.bind_some, hblock, okOr_some,
    ok_bind]

end McpRe.Http
