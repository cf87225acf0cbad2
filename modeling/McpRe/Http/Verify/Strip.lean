import McpRe.Http.Strip
import McpRe.Http.Verify.JsonPath

/-!
# What the reserved-field guard leaves

`Json.clean` is the value the guard leaves, by recursion on the value: in a `_meta` object the
proxy-owned members are skipped, and a `_meta` object that has no other members is skipped as a
whole. `Json.seededIn` are the positions it reports. The guard itself rewrites an object before it
descends into it, and descends into what it wrote; `stripDescendantMeta_eq` says that this comes to
the same.
-/

namespace McpRe.Http

open Lib Lib.Result Lib.Text

def metaKey : Str := "_meta".toList

def owned (key : Str) : Bool :=
  key == requestEvidenceBlockKey.toList || key == verifiedContextBlockKey.toList

theorem owned_metaKey : owned metaKey = false := by decide +kernel

/-- An object that removing the proxy-owned members would empty. -/
def emptied : Json → Bool
  | .object fields => !fields.isEmpty && fields.all fun kv => owned kv.1
  | _ => false

theorem get_meta (v : Json) : v.get "_meta" = v.step (.member metaKey) := v.get_eq_step "_meta"

/-- The verified-context key is a member of the `_meta` object of an object with these members. -/
def carries (fields : Members) : Bool :=
  match (Json.object fields).get "_meta" with
  | some (.object found) => found.any fun kv => kv.1 == verifiedContextBlockKey.toList
  | _ => false

namespace Json

mutual

/-- The value left. `inMeta`: it is the value of a member `_meta`. -/
def clean (inMeta : Bool) : Json → Json
  | object fields => object (cleanMembers inMeta fields)
  | array items => array (cleanItems items)
  | v => v

def cleanMembers (inMeta : Bool) : Members → Members
  | [] => []
  | (key, child) :: rest =>
    if inMeta && owned key || key == metaKey && emptied child then cleanMembers inMeta rest
    else (key, child.clean (key == metaKey)) :: cleanMembers inMeta rest

def cleanItems : List Json → List Json
  | [] => []
  | child :: rest => child.clean false :: cleanItems rest

end

mutual

/-- The positions of the objects whose `_meta` carried the verified-context key, in document order,
but for those inside a proxy-owned member of a `_meta` object. -/
def seededIn (inMeta : Bool) : Json → List (List Step)
  | object fields => (if carries fields then [[]] else []) ++ seededMembers inMeta fields
  | array items => seededItems 0 items
  | _ => []

def seededMembers (inMeta : Bool) : Members → List (List Step)
  | [] => []
  | (key, child) :: rest =>
    (if inMeta && owned key then []
      else (child.seededIn (key == metaKey)).map fun p => .member key :: p)
      ++ seededMembers inMeta rest

def seededItems (index : Nat) : List Json → List (List Step)
  | [] => []
  | child :: rest =>
    ((child.seededIn false).map fun p => .index index :: p) ++ seededItems (index + 1) rest

end

/-! ## The lists -/

def skipped (inMeta : Bool) (kv : Str × Json) : Bool :=
  inMeta && owned kv.1 || kv.1 == metaKey && emptied kv.2

theorem cleanMembers_cons (inMeta : Bool) (kv : Str × Json) (rest : Members) :
    cleanMembers inMeta (kv :: rest) = if skipped inMeta kv then cleanMembers inMeta rest
      else (kv.1, kv.2.clean (kv.1 == metaKey)) :: cleanMembers inMeta rest := rfl

theorem cleanMembers_eq (inMeta : Bool) (fields : Members) :
    cleanMembers inMeta fields = (fields.filter fun kv => !skipped inMeta kv).map
      fun kv => (kv.1, kv.2.clean (kv.1 == metaKey)) := by
  induction fields with
  | nil => rfl
  | cons kv rest ih =>
    rw [cleanMembers_cons, List.filter_cons, ih]
    cases skipped inMeta kv <;> rfl

theorem cleanItems_eq (items : List Json) : cleanItems items = items.map (clean false) := by
  induction items with
  | nil => rfl
  | cons v rest ih => rw [cleanItems, ih, List.map_cons]

theorem cleanMembers_true (fields : Members) :
    cleanMembers true fields = cleanMembers false (fields.filter fun kv => !owned kv.1) := by
  induction fields with
  | nil => rfl
  | cons kv rest ih =>
    rw [cleanMembers, List.filter_cons, ih]
    cases howned : owned kv.1 with
    | true => simp
    | false => simp [cleanMembers]

theorem seededMembers_true (fields : Members) :
    seededMembers true fields = seededMembers false (fields.filter fun kv => !owned kv.1) := by
  induction fields with
  | nil => rfl
  | cons kv rest ih =>
    rw [seededMembers, List.filter_cons, ih]
    cases howned : owned kv.1 with
    | true => simp
    | false => simp [seededMembers]

end Json

/-! ## One `_meta` object -/

def withoutOwned : Json → Json
  | .object fields => .object (fields.filter fun kv => !owned kv.1)
  | v => v

theorem clean_withoutOwned (v : Json) : (withoutOwned v).clean false = v.clean true := by
  cases v with
  | object fields => rw [withoutOwned, Json.clean, Json.clean, Json.cleanMembers_true]
  | _ => rfl

theorem carries_filter_owned (fields : Members) :
    carries (fields.filter fun kv => !owned kv.1) = carries fields := by
  have hget : (Json.object (fields.filter fun kv => !owned kv.1)).get "_meta"
      = (Json.object fields).get "_meta" := by
    simp only [Json.get, List.find?_filter]
    congr 1
    apply congrArg (fun p => fields.find? p)
    funext kv
    cases hkey : kv.1 == "_meta".toList with
    | false => simp
    | true =>
      rw [eq_of_beq hkey]
      exact congrArg (fun b => !b && true) owned_metaKey
  rw [carries, hget, carries]

theorem seededIn_withoutOwned (v : Json) : (withoutOwned v).seededIn false = v.seededIn true := by
  cases v with
  | object fields =>
    rw [withoutOwned, Json.seededIn, Json.seededIn, Json.seededMembers_true, carries_filter_owned]
  | _ => rfl

theorem remove_remove (found : Members) :
    Members.remove (Members.remove found requestEvidenceBlockKey).1 verifiedContextBlockKey
      = (found.filter fun kv => !owned kv.1,
        found.any fun kv => kv.1 == verifiedContextBlockKey.toList) := by
  have hne : (verifiedContextBlockKey.toList == requestEvidenceBlockKey.toList) = false := by
    decide +kernel
  simp only [Members.remove, List.filter_filter, List.any_filter, Prod.mk.injEq]
  constructor
  · apply List.filter_congr
    intro kv _
    rw [owned, Bool.not_or, Bool.and_comm]
  · apply congrArg (fun p => List.any found p)
    funext kv
    cases hkey : kv.1 == verifiedContextBlockKey.toList with
    | false => rw [Bool.and_false]
    | true => rw [eq_of_beq hkey, hne]; rfl

/-- `_meta` is dropped when a removal left nothing. -/
theorem emptied_iff_removed (found : Members) :
    (((Members.remove found requestEvidenceBlockKey).2
        || found.any fun kv => kv.1 == verifiedContextBlockKey.toList)
      && (found.filter fun kv => !owned kv.1).isEmpty) = emptied (.object found) := by
  have hany : ((Members.remove found requestEvidenceBlockKey).2
        || found.any fun kv => kv.1 == verifiedContextBlockKey.toList)
      = found.any fun kv => owned kv.1 := by
    rw [Members.remove]
    induction found with
    | nil => rfl
    | cons kv rest ih =>
      simp only [List.any_cons, owned] at ih ⊢
      rw [← ih]
      ac_rfl
  have hempty : (found.filter fun kv => !owned kv.1).isEmpty = found.all fun kv => owned kv.1 := by
    rw [Bool.eq_iff_iff, List.isEmpty_iff, List.filter_eq_nil_iff, List.all_eq_true]
    simp
  rw [hany, hempty, emptied]
  cases found with
  | nil => rfl
  | cons kv rest =>
    rw [Bool.eq_iff_iff]
    simp only [Bool.and_eq_true, List.any_eq_true, List.all_eq_true, List.isEmpty_cons,
      Bool.not_false, true_and]
    constructor
    · intro h
      exact h.2
    · intro h
      exact ⟨⟨kv, List.mem_cons_self .., h kv (List.mem_cons_self ..)⟩, h⟩

theorem get_of_mem {map : Members} {key : String} (hnodup : (map.map Prod.fst).Nodup)
    {kv : Str × Json} (hkv : kv ∈ map) (hkey : (kv.1 == key.toList) = true) :
    (Json.object map).get key = some kv.2 := by
  rw [Json.get_eq_step, Json.step_member_iff hnodup, ← eq_of_beq hkey]
  exact hkv

theorem set_eq_map {map : Members} {key : String} (value : Json)
    (hnodup : (map.map Prod.fst).Nodup) :
    Members.set key value map
      = map.map fun kv => (kv.1, if kv.1 == key.toList then value else kv.2) := by
  induction map with
  | nil => rfl
  | cons kv rest ih =>
    rw [List.map_cons, List.nodup_cons] at hnodup
    rw [Members.set, List.map_cons]
    split_ifs with hkey
    · congr 1
      have hrest : ∀ other ∈ rest, (other.1 == key.toList) = false := by
        intro other hother
        rw [beq_eq_false_iff_ne]
        intro heq
        exact hnodup.1 (List.mem_map.2 ⟨other, hother, heq.trans (eq_of_beq hkey).symm⟩)
      nth_rewrite 1 [← List.map_id rest]
      apply List.map_congr_left
      intro other hother
      rw [hrest other hother]
      rfl
    · rw [ih hnodup.2]

def written (kv : Str × Json) : Json := if kv.1 == metaKey then withoutOwned kv.2 else kv.2

theorem written_of_ne {kv : Str × Json} (h : (kv.1 == metaKey) = false) : written kv = kv.2 := by
  rw [written, h]
  rfl

theorem written_of_eq {kv : Str × Json} (h : (kv.1 == metaKey) = true) :
    written kv = withoutOwned kv.2 := by
  rw [written, h]
  rfl

theorem clean_written (kv : Str × Json) :
    (written kv).clean false = kv.2.clean (kv.1 == metaKey) := by
  cases hkey : kv.1 == metaKey with
  | false => rw [written_of_ne hkey]
  | true => rw [written_of_eq hkey, clean_withoutOwned]

theorem seededIn_written (kv : Str × Json) :
    (written kv).seededIn false = kv.2.seededIn (kv.1 == metaKey) := by
  cases hkey : kv.1 == metaKey with
  | false => rw [written_of_ne hkey]
  | true => rw [written_of_eq hkey, seededIn_withoutOwned]

theorem skipped_false_of_ne {kv : Str × Json} (h : (kv.1 == metaKey) = false) :
    Json.skipped false kv = false := by
  rw [Json.skipped, h]
  rfl

theorem skipped_false_of_eq {kv : Str × Json} (h : (kv.1 == metaKey) = true) :
    Json.skipped false kv = emptied kv.2 := by
  rw [Json.skipped, h]
  rfl

/-- What one call leaves of the container: the `_meta` member is skipped if it would be emptied, and
is otherwise written without the proxy-owned members. -/
theorem stripMetaOf_fst {map : Members} (hnodup : (map.map Prod.fst).Nodup) :
    (stripMetaOf map).1 = (map.filter fun kv => !Json.skipped false kv).map
      fun kv => (kv.1, written kv) := by
  have hmember : ∀ kv ∈ map, (kv.1 == metaKey) = true →
      (Json.object map).get "_meta" = some kv.2 := fun kv hkv hkey => get_of_mem hnodup hkv hkey
  rw [stripMetaOf]
  split
  · rename_i found hget
    have hchild : ∀ kv ∈ map, (kv.1 == metaKey) = true → kv.2 = .object found := by
      intro kv hkv hkey
      rw [hmember kv hkv hkey] at hget
      exact Option.some.inj hget
    simp only [remove_remove, emptied_iff_removed]
    cases hempty : emptied (.object found) with
    | true =>
      have hfilter : (map.filter fun kv => !Json.skipped false kv)
          = map.filter fun kv => !(kv.1 == metaKey) := by
        apply List.filter_congr
        intro kv hkv
        cases hkey : kv.1 == metaKey with
        | false => rw [skipped_false_of_ne hkey]
        | true => rw [skipped_false_of_eq hkey, hchild kv hkv hkey, hempty]
      rw [hfilter]
      nth_rewrite 1 [if_pos rfl, Members.remove, ← List.map_id (List.filter _ map)]
      apply List.map_congr_left
      intro kv hkv
      have hkey : (kv.1 == metaKey) = false := by
        have := (List.mem_filter.1 hkv).2
        rwa [Bool.not_eq_true'] at this
      rw [written_of_ne hkey]
      rfl
    | false =>
      have hfilter : (map.filter fun kv => !Json.skipped false kv) = map := by
        apply List.filter_eq_self.2
        intro kv hkv
        cases hkey : kv.1 == metaKey with
        | false => rw [skipped_false_of_ne hkey]; rfl
        | true => rw [skipped_false_of_eq hkey, hchild kv hkv hkey, hempty]; rfl
      rw [hfilter, if_neg (by decide), set_eq_map _ hnodup]
      apply List.map_congr_left
      intro kv hkv
      change (kv.1, if (kv.1 == metaKey) = true then _ else _) = _
      cases hkey : kv.1 == metaKey with
      | false => rw [written_of_ne hkey]; rfl
      | true => rw [written_of_eq hkey, hchild kv hkv hkey]; rfl
  · rename_i hget
    -- There is no `_meta`, or it is not an object.
    have hplain : ∀ kv ∈ map, (kv.1 == metaKey) = true →
        emptied kv.2 = false ∧ withoutOwned kv.2 = kv.2 := by
      intro kv hkv hkey
      have hne := hmember kv hkv hkey
      cases hvalue : kv.2 with
      | object fields => exact absurd (hvalue ▸ hne) (hget fields)
      | _ => exact ⟨rfl, rfl⟩
    have hfilter : (map.filter fun kv => !Json.skipped false kv) = map := by
      apply List.filter_eq_self.2
      intro kv hkv
      cases hkey : kv.1 == metaKey with
      | false => rw [skipped_false_of_ne hkey]; rfl
      | true => rw [skipped_false_of_eq hkey, (hplain kv hkv hkey).1]; rfl
    rw [hfilter]
    nth_rewrite 1 [← List.map_id map]
    apply List.map_congr_left
    intro kv hkv
    cases hkey : kv.1 == metaKey with
    | false => rw [written_of_ne hkey]; rfl
    | true => rw [written_of_eq hkey, (hplain kv hkv hkey).2]; rfl

theorem stripMetaOf_snd (map : Members) : (stripMetaOf map).2 = carries map := by
  cases hget : (Json.object map).get "_meta" with
  | none => simp only [stripMetaOf, carries, hget]
  | some value =>
    cases value with
    | object found =>
      simp only [stripMetaOf, carries, hget, remove_remove]
      split_ifs <;> rfl
    | _ => simp only [stripMetaOf, carries, hget]

/-! ## The descent -/

/-- The text of a position below `path`. -/
def spell (path : Str) : List Step → Str
  | [] => path
  | .member key :: p => spell (memberPath path key) p
  | .index i :: p => spell (elementPath path i) p

/-- The name the guard gives the `_meta` of the object at a position. -/
def positionName (path : Str) (p : List Step) : Str := memberPath (spell path p) metaKey

theorem seededIn_of_emptied {v : Json} (h : emptied v = true) : v.seededIn true = [] := by
  cases v with
  | object fields =>
    have hall : ∀ kv ∈ fields, owned kv.1 = true := by
      rw [emptied, Bool.and_eq_true, List.all_eq_true] at h
      exact h.2
    have hfilter : (fields.filter fun kv => !owned kv.1) = [] := by
      apply List.filter_eq_nil_iff.2
      intro kv hkv
      rw [hall kv hkv]
      decide
    rw [← seededIn_withoutOwned, withoutOwned, hfilter]
    rfl
  | _ => cases h

theorem map_stripMetaOf {map : Members} (hnodup : (map.map Prod.fst).Nodup) :
    ((stripMetaOf map).1.map fun kv => (kv.1, kv.2.clean false)) = Json.cleanMembers false map := by
  rw [stripMetaOf_fst hnodup, Json.cleanMembers_eq, List.map_map]
  apply List.map_congr_left
  intro kv _
  exact congrArg (Prod.mk kv.1) (clean_written kv)

theorem flatMap_stripMetaOf {map : Members} (hnodup : (map.map Prod.fst).Nodup) :
    ((stripMetaOf map).1.flatMap fun kv => (kv.2.seededIn false).map fun p => .member kv.1 :: p)
      = Json.seededMembers false map := by
  rw [stripMetaOf_fst hnodup, List.flatMap_map]
  simp only [seededIn_written]
  induction map with
  | nil => rfl
  | cons kv rest ih =>
    rw [List.map_cons, List.nodup_cons] at hnodup
    rw [Json.seededMembers, ← ih hnodup.2, List.filter_cons]
    cases hskip : Json.skipped false kv with
    | false => rfl
    | true =>
      obtain ⟨hkey, hempty⟩ : (kv.1 == metaKey) = true ∧ emptied kv.2 = true := by
        simpa only [Json.skipped, Bool.false_and, Bool.false_or, Bool.and_eq_true] using hskip
      rw [hkey, seededIn_of_emptied hempty]
      rfl

theorem distinct_withoutOwned {v : Json} (hv : v.distinct = true) :
    (withoutOwned v).distinct = true := by
  cases v with
  | object fields =>
    obtain ⟨hnodup, hchildren⟩ := Json.distinct_object.1 hv
    refine Json.distinct_object.2 ⟨hnodup.sublist (List.filter_sublist.map _), ?_⟩
    intro kv hkv
    exact hchildren kv (List.mem_of_mem_filter hkv)
  | _ => exact hv

theorem distinct_stripMetaOf {map : Members} (hmap : (Json.object map).distinct = true) :
    ∀ kv ∈ (stripMetaOf map).1, kv.2.distinct = true := by
  obtain ⟨hnodup, hchildren⟩ := Json.distinct_object.1 hmap
  rw [stripMetaOf_fst hnodup]
  intro kv hkv
  obtain ⟨old, hold, rfl⟩ := List.mem_map.1 hkv
  have hchild := hchildren old (List.mem_of_mem_filter hold)
  cases hkey : old.1 == metaKey with
  | false => simpa only [written_of_ne hkey] using hchild
  | true => simpa only [written_of_eq hkey] using distinct_withoutOwned hchild

mutual

theorem stripDescendantMeta_eq (path : Str) (v : Json) (hv : v.distinct = true) :
    stripDescendantMeta path v
      = (v.clean false, (v.seededIn false).map (positionName path)) := by
  match v with
  | .object map => rw [stripDescendantMeta, stripObject_eq path map hv, Json.clean]
  | .array items =>
    rw [stripDescendantMeta, stripElements_eq path 0 items (Json.distinctItems_iff.1 hv), Json.clean,
      Json.seededIn]
  | .null | .bool _ | .number _ | .string _ =>
    rw [stripDescendantMeta]
    · rfl
    all_goals simp
termination_by 2 * sizeOf v

theorem stripObject_eq (path : Str) (map : Members) (hmap : (Json.object map).distinct = true) :
    stripObject path map = (Json.cleanMembers false map,
      ((Json.object map).seededIn false).map (positionName path)) := by
  have hnodup := (Json.distinct_object.1 hmap).1
  rw [stripObject, stripMembers_eq path (stripMetaOf map).1 (distinct_stripMetaOf hmap),
    map_stripMetaOf hnodup, flatMap_stripMetaOf hnodup, stripMetaOf_snd, Json.seededIn,
    List.map_append]
  cases carries map <;> rfl
termination_by 2 * sizeOf map + 1
decreasing_by
  have := sizeOf_stripMetaOf_le map
  omega

/-- The loop takes no member for a `_meta`: what there was to do for one was done before it. -/
theorem stripMembers_eq (path : Str) (map : Members) (hmap : ∀ kv ∈ map, kv.2.distinct = true) :
    stripMembers path map = (map.map fun kv => (kv.1, kv.2.clean false),
      (map.flatMap fun kv => (kv.2.seededIn false).map fun p => .member kv.1 :: p).map
        (positionName path)) := by
  match map with
  | [] => rw [stripMembers]; rfl
  | (key, child) :: rest =>
    rw [stripMembers, stripDescendantMeta_eq _ child (hmap _ (List.mem_cons_self ..)),
      stripMembers_eq path rest fun kv hkv => hmap kv (List.mem_cons_of_mem _ hkv)]
    simp only [List.map_cons, List.flatMap_cons, List.map_append, List.map_map]
    rfl
termination_by 2 * sizeOf map

theorem stripElements_eq (path : Str) (index : Nat) (items : List Json)
    (hitems : ∀ v ∈ items, v.distinct = true) :
    stripElements path index items
      = (Json.cleanItems items, (Json.seededItems index items).map (positionName path)) := by
  match items with
  | [] => rw [stripElements]; rfl
  | child :: rest =>
    rw [stripElements, stripDescendantMeta_eq _ child (hitems _ (List.mem_cons_self ..)),
      stripElements_eq path (index + 1) rest fun v hv => hitems v (List.mem_cons_of_mem _ hv)]
    simp only [Json.cleanItems, Json.seededItems, List.map_append, List.map_map]
    rfl
termination_by 2 * sizeOf items

end

end McpRe.Http
