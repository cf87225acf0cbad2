import McpRe.Http.Verify.Strip

/-!
# The guarded body, position by position

The positions the guard removes are those inside a proxy-owned member of a `_meta` object and those
of a `_meta` object with no other members. `Json.locate_clean` says that the value left has every
other position and no more; `Json.mem_seededIn` says which positions are reported.
-/

namespace McpRe.Http

open Lib Lib.Result Lib.Text


/-- The step is into a proxy-owned member. -/
def Step.owned : Step → Bool
  | .member key => Http.owned key
  | .index _ => false

theorem Step.member_beq {a b : Str} : (Step.member a == .member b) = (a == b) := by
  rw [Bool.eq_iff_iff, beq_iff_eq, beq_iff_eq, Step.member.injEq]

/-- The position is inside a proxy-owned member of a `_meta`. -/
def InsideOwned (p : List Step) : Prop :=
  ∃ q s r, p = q ++ Step.member metaKey :: s :: r ∧ s.owned = true

/-- The position is a `_meta` that removing the proxy-owned members empties, or is inside one. -/
def InsideEmptied (v : Json) (p : List Step) : Prop :=
  ∃ q r child, p = q ++ Step.member metaKey :: r ∧
    v.locate (q ++ [Step.member metaKey]) = some child ∧ emptied child = true

/-- The position is one the guard removes. -/
def Removed (v : Json) (p : List Step) : Prop := InsideOwned p ∨ InsideEmptied v p

/-- The `_meta` of the object at the position carries the verified-context key. -/
def Carries (v : Json) (p : List Step) : Prop :=
  ∃ fields, v.locate (p ++ [Step.member metaKey]) = some (.object fields) ∧
    verifiedContextBlockKey.toList ∈ fields.map Prod.fst

/-- Two values with the same scalar, with elements at the same indices, or with members. -/
def SameNode : Json → Json → Prop
  | .object _, .object _ => True
  | .array items, .array others => items.length = others.length
  | v, w => v = w

def InsideOwnedFrom (inMeta : Bool) (p : List Step) : Prop :=
  (inMeta = true ∧ ∃ s r, p = s :: r ∧ s.owned = true) ∨ InsideOwned p

def RemovedFrom (inMeta : Bool) (v : Json) (p : List Step) : Prop :=
  InsideOwnedFrom inMeta p ∨ InsideEmptied v p

/-- The value at the position is the value of a `_meta`. -/
def metaAt (inMeta : Bool) : List Step → Bool
  | [] => inMeta
  | s :: p => metaAt (s == .member metaKey) p

theorem insideOwnedFrom_false {p : List Step} : InsideOwnedFrom false p ↔ InsideOwned p := by
  simp [InsideOwnedFrom]

theorem removedFrom_false {v : Json} {p : List Step} : RemovedFrom false v p ↔ Removed v p := by
  rw [RemovedFrom, insideOwnedFrom_false, Removed]

theorem not_insideOwnedFrom_nil {inMeta : Bool} : ¬InsideOwnedFrom inMeta [] := by
  rintro (⟨-, s, r, h, -⟩ | ⟨q, s, r, h, -⟩)
  · cases h
  · cases q <;> cases h

theorem not_insideEmptied_nil {v : Json} : ¬InsideEmptied v [] := by
  rintro ⟨q, r, child, h, -⟩
  cases q <;> cases h

theorem insideOwnedFrom_cons {inMeta : Bool} {s : Step} {p : List Step} :
    InsideOwnedFrom inMeta (s :: p) ↔
      (inMeta = true ∧ s.owned = true) ∨ InsideOwnedFrom (s == .member metaKey) p := by
  constructor
  · rintro (⟨hmeta, _, _, h, howned⟩ | ⟨q, t, r, h, howned⟩)
    · cases h
      exact .inl ⟨hmeta, howned⟩
    · cases q with
      | nil =>
        cases h
        exact .inr (.inl ⟨beq_self_eq_true _, t, r, rfl, howned⟩)
      | cons _ q =>
        cases h
        exact .inr (.inr ⟨q, t, r, rfl, howned⟩)
  · rintro (⟨hmeta, howned⟩ | ⟨hmeta, t, r, rfl, howned⟩ | ⟨q, t, r, rfl, howned⟩)
    · exact .inl ⟨hmeta, s, p, rfl, howned⟩
    · exact .inr ⟨[], t, r, by rw [eq_of_beq hmeta, List.nil_append], howned⟩
    · exact .inr ⟨s :: q, t, r, rfl, howned⟩

theorem insideEmptied_cons {v child : Json} {s : Step} {p : List Step} (hs : v.step s = some child) :
    InsideEmptied v (s :: p) ↔
      (s = .member metaKey ∧ emptied child = true) ∨ InsideEmptied child p := by
  constructor
  · rintro ⟨q, r, found, h, hfound, hempty⟩
    cases q with
    | nil =>
      cases h
      rw [List.nil_append, Json.locate_cons, hs] at hfound
      cases hfound
      exact .inl ⟨rfl, hempty⟩
    | cons _ q =>
      cases h
      rw [List.cons_append, Json.locate_cons, hs] at hfound
      exact .inr ⟨q, r, found, rfl, hfound, hempty⟩
  · rintro (⟨rfl, hempty⟩ | ⟨q, r, found, rfl, hfound, hempty⟩)
    · refine ⟨[], p, child, rfl, ?_, hempty⟩
      rw [List.nil_append, Json.locate_cons, hs]
      rfl
    · refine ⟨s :: q, r, found, rfl, ?_, hempty⟩
      rw [List.cons_append, Json.locate_cons, hs]
      exact hfound

/-- The member a step leads to is skipped. -/
def skippedAt (inMeta : Bool) : Step → Json → Bool
  | .member key, child => Json.skipped inMeta (key, child)
  | .index _, _ => false

theorem skippedAt_iff {inMeta : Bool} {s : Step} {child : Json} :
    skippedAt inMeta s child = true ↔
      (inMeta = true ∧ s.owned = true) ∨ (s = .member metaKey ∧ emptied child = true) := by
  cases s with
  | member key => simp [skippedAt, Json.skipped, Step.owned]
  | index i => simp [skippedAt, Step.owned]

theorem removedFrom_cons {inMeta : Bool} {v child : Json} {s : Step} {p : List Step}
    (hs : v.step s = some child) :
    RemovedFrom inMeta v (s :: p) ↔
      skippedAt inMeta s child = true ∨ RemovedFrom (s == .member metaKey) child p := by
  rw [RemovedFrom, insideOwnedFrom_cons, insideEmptied_cons hs, skippedAt_iff, RemovedFrom]
  exact or_or_or_comm

namespace Json

theorem step_object_cleanMembers {inMeta : Bool} {fields : Members} (key : Str)
    (hnodup : (fields.map Prod.fst).Nodup) :
    (object (cleanMembers inMeta fields)).step (.member key)
      = ((object fields).step (.member key)).bind fun child =>
        if skippedAt inMeta (.member key) child then none
        else some (child.clean (key == metaKey)) := by
  induction fields with
  | nil => rfl
  | cons kv rest ih =>
    obtain ⟨name, child⟩ := kv
    rw [List.map_cons, List.nodup_cons] at hnodup
    have hrest := ih hnodup.2
    rw [cleanMembers_cons, step_member_cons]
    by_cases hname : name = key
    · subst hname
      rw [step_member_eq_none hnodup.1] at hrest
      cases hskip : skipped inMeta (name, child) with
      | true => simpa [skippedAt, hskip] using hrest
      | false => simp [skippedAt, hskip, step_member_cons]
    · cases hskip : skipped inMeta (name, child) with
      | true => simpa [hname] using hrest
      | false => simpa [hname, step_member_cons] using hrest

theorem step_clean {v : Json} (hv : v.distinct = true) (inMeta : Bool) (s : Step) :
    (v.clean inMeta).step s = (v.step s).bind fun child =>
      if skippedAt inMeta s child then none else some (child.clean (s == .member metaKey)) := by
  cases v with
  | object fields =>
    cases s with
    | member key =>
      rw [clean, step_object_cleanMembers key (distinct_object.1 hv).1, Step.member_beq]
    | index i => rfl
  | array items =>
    cases s with
    | member key => rfl
    | index i =>
      simp only [clean, step, cleanItems_eq, List.getElem?_map]
      cases items[i]? <;> rfl
  | _ => cases s <;> rfl

theorem locate_clean {v y : Json} (hv : v.distinct = true) (inMeta : Bool) (p : List Step) :
    (v.clean inMeta).locate p = some y ↔
      ∃ x, v.locate p = some x ∧ ¬RemovedFrom inMeta v p ∧ x.clean (metaAt inMeta p) = y := by
  induction p generalizing v inMeta with
  | nil =>
    have hnot : ¬RemovedFrom inMeta v [] := by
      rintro (h | h)
      · exact not_insideOwnedFrom_nil h
      · exact not_insideEmptied_nil h
    simp [hnot, metaAt]
  | cons s p ih =>
    rw [locate_cons, step_clean hv, locate_cons]
    cases hs : v.step s with
    | none => simp
    | some child =>
      rw [Option.bind_some, Option.bind_some, removedFrom_cons hs, metaAt]
      cases hskip : skippedAt inMeta s child with
      | true => simp
      | false => simpa using ih (distinct_of_step hv hs) (s == .member metaKey)

theorem sameNode_clean (x : Json) (inMeta : Bool) : SameNode x (x.clean inMeta) := by
  cases x with
  | object fields => trivial
  | array items => simp [clean, SameNode, cleanItems_eq]
  | _ => rfl

/-! ## The positions reported -/

theorem mem_seededItems {index : Nat} {items : List Json} {q : List Step} :
    q ∈ seededItems index items ↔ ∃ j child p, q = .index (index + j) :: p ∧
      items[j]? = some child ∧ p ∈ child.seededIn false := by
  induction items generalizing index with
  | nil => simp [seededItems]
  | cons first rest ih =>
    rw [seededItems, List.mem_append, ih, List.mem_map]
    constructor
    · rintro (⟨p, hp, rfl⟩ | ⟨j, child, p, rfl, hchild, hp⟩)
      · exact ⟨0, first, p, rfl, rfl, hp⟩
      · exact ⟨j + 1, child, p, by rw [Nat.add_right_comm, Nat.add_assoc], hchild, hp⟩
    · rintro ⟨j, child, p, rfl, hchild, hp⟩
      cases j with
      | zero =>
        cases hchild
        exact .inl ⟨p, hp, rfl⟩
      | succ j => exact .inr ⟨j, child, p, by rw [Nat.add_right_comm, Nat.add_assoc], hchild, hp⟩

theorem mem_seededMembers {inMeta : Bool} {fields : Members} {q : List Step} :
    q ∈ seededMembers inMeta fields ↔ ∃ kv ∈ fields, ∃ p, q = .member kv.1 :: p ∧
      ¬(inMeta = true ∧ owned kv.1 = true) ∧ p ∈ kv.2.seededIn (kv.1 == metaKey) := by
  induction fields with
  | nil => simp [seededMembers]
  | cons kv rest ih =>
    have hfirst : q ∈ (if inMeta && owned kv.1 then []
          else (kv.2.seededIn (kv.1 == metaKey)).map fun p => Step.member kv.1 :: p) ↔
        ∃ p, q = .member kv.1 :: p ∧ ¬(inMeta = true ∧ owned kv.1 = true) ∧
          p ∈ kv.2.seededIn (kv.1 == metaKey) := by
      by_cases h : inMeta = true ∧ owned kv.1 = true
      · simp [h]
      · have hcond : ¬(inMeta && owned kv.1) = true := by rwa [Bool.and_eq_true]
        rw [if_neg hcond, List.mem_map]
        constructor
        · rintro ⟨p, hp, rfl⟩
          exact ⟨p, rfl, h, hp⟩
        · rintro ⟨p, rfl, -, hp⟩
          exact ⟨p, hp, rfl⟩
    rw [seededMembers, List.mem_append, hfirst, ih, List.exists_mem_cons_iff]

theorem nil_mem_seededIn {v : Json} {inMeta : Bool} :
    [] ∈ v.seededIn inMeta ↔ Carries v [] := by
  cases v with
  | object fields =>
    have hmembers : ([] : List Step) ∉ seededMembers inMeta fields := by
      rw [mem_seededMembers]
      rintro ⟨kv, -, p, h, -⟩
      cases h
    have hcarries : Carries (object fields) [] ↔ carries fields = true := by
      have hlocate : (object fields).locate ([] ++ [Step.member metaKey])
          = (object fields).get "_meta" := by
        rw [get_meta, List.nil_append, locate_singleton]
      rw [Carries, carries, hlocate]
      cases (object fields).get "_meta" with
      | none => simp
      | some found => cases found <;> simp
    rw [seededIn, List.mem_append, hcarries]
    simp [hmembers]
  | array items =>
    have hitems : ([] : List Step) ∉ seededItems 0 items := by
      rw [mem_seededItems]
      rintro ⟨j, child, p, h, -⟩
      cases h
    simp [seededIn, hitems, Carries, locate, step]
  | _ => simp [seededIn, Carries, locate, step]

theorem cons_mem_seededIn {v : Json} (hv : v.distinct = true) {inMeta : Bool} {s : Step}
    {p : List Step} :
    s :: p ∈ v.seededIn inMeta ↔ ¬(inMeta = true ∧ s.owned = true) ∧
      ∃ child, v.step s = some child ∧ p ∈ child.seededIn (s == .member metaKey) := by
  cases v with
  | object fields =>
    have hroot : s :: p ∉ (if carries fields then [[]] else [] : List (List Step)) := by
      split_ifs <;> simp
    rw [seededIn, List.mem_append, or_iff_right hroot, mem_seededMembers]
    cases s with
    | member key =>
      simp only [step_member_iff (distinct_object.1 hv).1, Step.member_beq, Step.owned]
      constructor
      · rintro ⟨kv, hkv, _, h, howned, hp⟩
        cases h
        exact ⟨howned, kv.2, hkv, hp⟩
      · rintro ⟨howned, child, hchild, hp⟩
        exact ⟨(key, child), hchild, p, rfl, howned, hp⟩
    | index i => simp [step]
  | array items =>
    rw [seededIn, mem_seededItems]
    cases s with
    | member key => simp [step]
    | index i =>
      simp only [Nat.zero_add, step, Step.owned]
      constructor
      · rintro ⟨_, child, _, h, hchild, hp⟩
        cases h
        exact ⟨by simp, child, hchild, hp⟩
      · rintro ⟨-, child, hchild, hp⟩
        exact ⟨i, child, p, rfl, hchild, hp⟩
  | _ => simp [seededIn, step]

theorem carries_cons {v : Json} {s : Step} {p : List Step} :
    Carries v (s :: p) ↔ ∃ child, v.step s = some child ∧ Carries child p := by
  constructor
  · rintro ⟨fields, hfields, hkey⟩
    obtain ⟨child, hs, hchild⟩ := Option.bind_eq_some_iff.1 hfields
    exact ⟨child, hs, fields, hchild, hkey⟩
  · rintro ⟨child, hs, fields, hchild, hkey⟩
    refine ⟨fields, ?_, hkey⟩
    rw [List.cons_append, locate_cons, hs]
    exact hchild

theorem mem_seededIn {v : Json} (hv : v.distinct = true) {inMeta : Bool} {p : List Step} :
    p ∈ v.seededIn inMeta ↔ Carries v p ∧ ¬InsideOwnedFrom inMeta p := by
  induction p generalizing v inMeta with
  | nil => simp [nil_mem_seededIn, not_insideOwnedFrom_nil]
  | cons s p ih =>
    rw [cons_mem_seededIn hv, carries_cons, insideOwnedFrom_cons, not_or]
    constructor
    · rintro ⟨howned, child, hs, hp⟩
      obtain ⟨hcarries, hnot⟩ := (ih (distinct_of_step hv hs)).1 hp
      exact ⟨⟨child, hs, hcarries⟩, howned, hnot⟩
    · rintro ⟨⟨child, hs, hcarries⟩, howned, hnot⟩
      exact ⟨howned, child, hs, (ih (distinct_of_step hv hs)).2 ⟨hcarries, hnot⟩⟩

/-! ## A second run -/

theorem not_owned_of_mem_cleanMembers {fields : Members} {kv : Str × Json}
    (hkv : kv ∈ cleanMembers true fields) : owned kv.1 = false := by
  rw [cleanMembers_eq] at hkv
  obtain ⟨old, hold, rfl⟩ := List.mem_map.1 hkv
  have hkept := (List.mem_filter.1 hold).2
  simp only [skipped, Bool.true_and, Bool.not_or, Bool.and_eq_true, Bool.not_eq_true'] at hkept
  exact hkept.1

/-- Cleaning leaves nothing for a second cleaning to empty. -/
theorem emptied_clean (v : Json) : emptied (v.clean true) = false := by
  cases v with
  | object fields =>
    rw [clean, emptied]
    cases hclean : cleanMembers true fields with
    | nil => rfl
    | cons kv rest =>
      have := not_owned_of_mem_cleanMembers (hclean ▸ List.mem_cons_self .. : kv ∈ _)
      rw [List.all_cons, this]
      rfl
  | _ => rfl

theorem cleanMembers_eq_self {inMeta : Bool} {fields : Members}
    (h : ∀ kv ∈ fields, skipped inMeta kv = false ∧ kv.2.clean (kv.1 == metaKey) = kv.2) :
    cleanMembers inMeta fields = fields := by
  induction fields with
  | nil => rfl
  | cons kv rest ih =>
    obtain ⟨hskip, hclean⟩ := h kv (List.mem_cons_self ..)
    rw [cleanMembers_cons, hskip, hclean, ih fun kv hkv => h kv (List.mem_cons_of_mem _ hkv)]
    rfl

theorem clean_clean (v : Json) (inMeta : Bool) :
    (v.clean inMeta).clean inMeta = v.clean inMeta := by
  induction v using ind generalizing inMeta with
  | null => rfl
  | bool b => rfl
  | number text => rfl
  | string s => rfl
  | array items ih =>
    simp only [clean, cleanItems_eq, List.map_map, array.injEq]
    apply List.map_congr_left
    intro v hv
    exact ih v hv false
  | object fields ih =>
    rw [clean, clean, object.injEq]
    apply cleanMembers_eq_self
    intro kv hkv
    rw [cleanMembers_eq] at hkv
    obtain ⟨old, hold, rfl⟩ := List.mem_map.1 hkv
    obtain ⟨hmem, hkept⟩ := List.mem_filter.1 hold
    refine ⟨?_, ih old hmem _⟩
    rw [Bool.not_eq_true', skipped, Bool.or_eq_false_iff] at hkept
    rw [skipped, hkept.1, Bool.false_or]
    cases hkey : old.1 == metaKey with
    | false => rfl
    | true => rw [emptied_clean]; rfl

theorem depth_clean_le (v : Json) (inMeta : Bool) : (v.clean inMeta).depth ≤ v.depth := by
  induction v using ind generalizing inMeta with
  | null => exact le_rfl
  | bool b => exact le_rfl
  | number text => exact le_rfl
  | string s => exact le_rfl
  | array items ih =>
    rw [clean, depth, depth, cleanItems_eq]
    apply Nat.add_le_add_right
    rw [depthItems_le]
    intro w hw
    obtain ⟨v, hv, rfl⟩ := List.mem_map.1 hw
    exact (ih v hv false).trans (depthItems_le.1 le_rfl v hv)
  | object fields ih =>
    rw [clean, depth, depth, cleanMembers_eq]
    apply Nat.add_le_add_right
    rw [depthMembers_le]
    intro w hw
    obtain ⟨kv, hkv, rfl⟩ := List.mem_map.1 hw
    have hmem := List.mem_of_mem_filter hkv
    exact (ih kv hmem _).trans (depthMembers_le.1 le_rfl kv hmem)

end Json

/-! ## The guard -/

/-- What `serde_json` is relied on for: a parsed object has each name once, and a value no deeper
than a parsed one is read back from its text. -/
structure Faithful (P : Platform) (toVec : Json → Option Bytes) : Prop where
  distinct : ∀ b v, P.fromSlice b = some v → v.distinct = true
  read_back : ∀ b v, P.fromSlice b = some v → ∀ w text, w.depth ≤ v.depth →
    toVec w = some text → P.fromSlice text = some w

/-- The body that is handed on, against the one that was received. -/
structure Guarded (v w : Json) : Prop where
  no_owned : ∀ (p : List Step) fields,
    w.locate (p ++ [Step.member metaKey]) = some (.object fields) → ∀ kv ∈ fields, owned kv.1 = false
  kept : ∀ p x, v.locate p = some x → ¬Removed v p → ∃ y, w.locate p = some y ∧ SameNode x y
  not_added : ∀ p, (w.locate p).isSome → (v.locate p).isSome
  dropped : ∀ (p : List Step) fields,
    v.locate (p ++ [Step.member metaKey]) = some (.object fields) →
    (w.locate p).isSome → w.locate (p ++ [Step.member metaKey]) = none →
    fields ≠ [] ∧ ∀ kv ∈ fields, owned kv.1 = true

theorem metaAt_append_metaKey (inMeta : Bool) (p : List Step) :
    metaAt inMeta (p ++ [Step.member metaKey]) = true := by
  induction p generalizing inMeta with
  | nil => exact beq_self_eq_true _
  | cons s p ih => exact ih _

theorem guarded_clean {v : Json} (hv : v.distinct = true) : Guarded v (v.clean false) where
  no_owned := by
    intro p fields h kv hkv
    obtain ⟨x, -, -, hclean⟩ := (Json.locate_clean hv false _).1 h
    rw [metaAt_append_metaKey] at hclean
    cases x with
    | object old =>
      rw [Json.clean, Json.object.injEq] at hclean
      exact Json.not_owned_of_mem_cleanMembers (hclean ▸ hkv)
    | _ => cases hclean
  kept := by
    intro p x hx hnot
    have hnot' : ¬RemovedFrom false v p := fun h => hnot (removedFrom_false.1 h)
    exact ⟨_, (Json.locate_clean hv false p).2 ⟨x, hx, hnot', rfl⟩, Json.sameNode_clean x _⟩
  not_added := by
    intro p h
    obtain ⟨y, hy⟩ := Option.isSome_iff_exists.1 h
    obtain ⟨x, hx, -⟩ := (Json.locate_clean hv false p).1 hy
    exact Option.isSome_iff_exists.2 ⟨x, hx⟩
  dropped := by
    intro p fields hfields hcontainer hnone
    -- The container is still there, so it is its own `_meta` member that was skipped.
    obtain ⟨y, hy⟩ := Option.isSome_iff_exists.1 hcontainer
    obtain ⟨x, hx, -, rfl⟩ := (Json.locate_clean hv false p).1 hy
    have hxd : x.distinct = true := Json.distinct_of_locate hv hx
    rw [Json.locate_append, hx, Option.bind_some, Json.locate_singleton] at hfields
    rw [Json.locate_append, hy, Option.bind_some, Json.locate_singleton, Json.step_clean hxd,
      hfields, Option.bind_some] at hnone
    have hskip : skippedAt (metaAt false p) (.member metaKey) (.object fields) = true := by
      by_contra h
      rw [if_neg h] at hnone
      cases hnone
    rcases skippedAt_iff.1 hskip with ⟨-, howned⟩ | ⟨-, hempty⟩
    · rw [Step.owned, owned_metaKey] at howned
      cases howned
    · simpa [emptied] using hempty

/-- Nothing that was guarded is reported again. -/
theorem seededIn_eq_nil_of_guarded {v w : Json} (h : Guarded v w) (hw : w.distinct = true) :
    w.seededIn false = [] := by
  rw [List.eq_nil_iff_forall_not_mem]
  intro p hp
  obtain ⟨⟨fields, hfields, hkey⟩, -⟩ := (Json.mem_seededIn hw).1 hp
  obtain ⟨kv, hkv, hname⟩ := List.mem_map.1 hkey
  have hno := h.no_owned p fields hfields kv hkv
  rw [hname] at hno
  exact absurd hno (by decide +kernel)

theorem refuseUnwalkableShape_clean {v : Json} (hv : v.distinct = true)
    (h : refuseUnwalkableShape v = .ok ()) : refuseUnwalkableShape (v.clean false) = .ok () := by
  cases v with
  | object map =>
    have hparams : (Json.object (Json.cleanMembers false map)).get "params"
        = ((Json.object map).get "params").map (Json.clean false) := by
      have hstep := Json.step_clean hv false (.member "params".toList)
      rw [Json.clean] at hstep
      rw [Json.get_eq_step, Json.get_eq_step, hstep]
      have hname : (Step.member "params".toList == .member metaKey) = false := by decide
      cases (Json.object map).step (.member "params".toList) with
      | none => rfl
      | some child =>
        rw [Option.bind_some, hname]
        rfl
    rw [Json.clean, refuseUnwalkableShape, hparams]
    rw [refuseUnwalkableShape] at h
    cases hget : (Json.object map).get "params" with
    | none => rfl
    | some child =>
      rw [hget] at h
      cases child with
      | object fields => rfl
      | array items => rfl
      | _ => cases h
  | _ => cases h

theorem stripProxyOwnedMeta_eq_ok {P : Platform} {toVec : Json → Option Bytes} {body : Bytes}
    {v : Json} (hparse : P.fromSlice body = some v) (hv : v.distinct = true) {out : StrippedBody} :
    stripProxyOwnedMeta P toVec body = .ok out ↔ refuseUnwalkableShape v = .ok () ∧
      toVec (v.clean false) = some out.body ∧
      out.seeded.paths = (v.seededIn false).map (positionName []) := by
  rw [stripProxyOwnedMeta, hparse, okOr_some, ok_bind, bind_eq_ok, stripDescendantMeta_eq [] v hv]
  constructor
  · rintro ⟨_, hshape, h⟩
    obtain ⟨text, htext, h⟩ := bind_eq_ok.1 h
    cases h
    exact ⟨hshape, okOr_eq_ok.1 htext, rfl⟩
  · rintro ⟨hshape, htext, hpaths⟩
    refine ⟨(), hshape, ?_⟩
    simp only [htext, okOr_some, ok_bind, ← hpaths]

theorem any_iff {v : Json} (hv : v.distinct = true) {report : SeededMetaPositions}
    (h : report.paths = (v.seededIn false).map (positionName [])) :
    report.any = true ↔ ∃ p, Carries v p ∧ ¬InsideOwned p := by
  rw [SeededMetaPositions.any, Bool.not_eq_true', List.isEmpty_eq_false_iff_exists_mem, h]
  constructor
  · intro hmem
    obtain ⟨_, hname⟩ := hmem
    obtain ⟨p, hp, -⟩ := List.mem_map.1 hname
    rw [Json.mem_seededIn hv, insideOwnedFrom_false] at hp
    exact ⟨p, hp⟩
  · intro hcarries
    obtain ⟨p, hp⟩ := hcarries
    rw [← insideOwnedFrom_false, ← Json.mem_seededIn hv] at hp
    exact ⟨_, List.mem_map_of_mem hp⟩

theorem strip_guards_the_body {P : Platform} {toVec : Json → Option Bytes} (hf : Faithful P toVec)
    {body : Bytes} {v : Json} {out : StrippedBody} (hparse : P.fromSlice body = some v)
    (hok : stripProxyOwnedMeta P toVec body = .ok out) :
    ((∃ w, P.fromSlice out.body = some w ∧ Guarded v w) ∧
      stripProxyOwnedMeta P toVec out.body = .ok ⟨out.body, ⟨[]⟩⟩ ∧
      (out.seeded.any = true ↔ ∃ p, Carries v p)) ↔
    ∀ p, Carries v p → InsideOwned p → ∃ q, Carries v q ∧ ¬InsideOwned q := by
  have hv := hf.distinct body v hparse
  obtain ⟨hshape, hprint, hpaths⟩ := (stripProxyOwnedMeta_eq_ok hparse hv).1 hok
  have hany := any_iff hv hpaths
  have hread : P.fromSlice out.body = some (v.clean false) :=
    hf.read_back body v hparse _ _ (v.depth_clean_le false) hprint
  have hw := hf.distinct _ _ hread
  have hguarded := guarded_clean hv
  have hagain : stripProxyOwnedMeta P toVec out.body = .ok ⟨out.body, ⟨[]⟩⟩ := by
    rw [stripProxyOwnedMeta_eq_ok hread hw, v.clean_clean, seededIn_eq_nil_of_guarded hguarded hw]
    exact ⟨refuseUnwalkableShape_clean hv hshape, hprint, rfl⟩
  constructor
  · intro h p hp _
    exact hany.1 (h.2.2.2 ⟨p, hp⟩)
  · intro h
    refine ⟨⟨_, hread, hguarded⟩, hagain, hany.trans ⟨?_, ?_⟩⟩
    · intro hseeded
      obtain ⟨p, hp, -⟩ := hseeded
      exact ⟨p, hp⟩
    · intro hcarries
      obtain ⟨p, hp⟩ := hcarries
      by_cases hinside : InsideOwned p
      · exact h p hp hinside
      · exact ⟨p, hp, hinside⟩

/-! ## Two bodies -/

namespace GuardSample

def contextMember : Str × Json := (verifiedContextBlockKey.toList, .number ['1'])

/-- The key in the top-level `_meta`. -/
def seededJson : Json :=
  .object [(metaKey, .object [contextMember]), ("id".toList, .number ['7'])]

def seededText : Bytes :=
  utf8 "\x7b\"_meta\":\x7b\"se.syncom/mcp-re.verified-context\":1\x7d,\"id\":7\x7d".toList

def leftJson : Json := .object [("id".toList, .number ['7'])]

def leftText : Bytes := utf8 "\x7b\"id\":7\x7d".toList

/-- The key in a `_meta` inside the request-evidence block. -/
def hiddenJson : Json :=
  .object [(metaKey, .object [(requestEvidenceBlockKey.toList,
    .object [(metaKey, .object [contextMember])])])]

def hiddenText : Bytes :=
  utf8 ("\x7b\"_meta\":\x7b\"se.syncom/mcp-re.http.request\":\x7b\"_meta\":"
    ++ "\x7b\"se.syncom/mcp-re.verified-context\":1\x7d\x7d\x7d\x7d").toList

def emptyText : Bytes := utf8 "\x7b\x7d".toList

def documents : List (Bytes × Json) :=
  [(emptyText, .object []), (leftText, leftJson), (seededText, seededJson),
    (hiddenText, hiddenJson)]

def platform (documents : List (Bytes × Json)) : Platform where
  sha256 _ := ⟨List.replicate 32 0, length_zeros⟩
  fromSlice b := (documents.find? fun d => d.1 == b).map Prod.snd
  readDocument b := (documents.find? fun d => d.1 == b).map Prod.snd
  isPoint _ := false
  verifyStrict _ _ _ := false

def toVec : Json → Option Bytes
  | .object [] => some emptyText
  | .object [(key, .number text)] => if key = "id".toList ∧ text = ['7'] then some leftText else none
  | _ => none

theorem distinct_of_fromSlice {documents : List (Bytes × Json)}
    (h : ∀ d ∈ documents, d.2.distinct = true) (b : Bytes) (v : Json)
    (hv : (platform documents).fromSlice b = some v) : v.distinct = true := by
  obtain ⟨d, hd, rfl⟩ := Option.map_eq_some_iff.1 hv
  exact h d (List.mem_of_find?_eq_some hd)

theorem fromSlice_cons_self {text : Bytes} {v : Json} {rest : List (Bytes × Json)} :
    (platform ((text, v) :: rest)).fromSlice text = some v := by
  simp [platform]

theorem fromSlice_cons_of_ne {text b : Bytes} {v : Json} {rest : List (Bytes × Json)}
    (h : text ≠ b) : (platform ((text, v) :: rest)).fromSlice b = (platform rest).fromSlice b := by
  simp [platform, h]

theorem fromSlice_empty : (platform documents).fromSlice emptyText = some (.object []) :=
  fromSlice_cons_self

theorem fromSlice_left : (platform documents).fromSlice leftText = some leftJson := by
  rw [documents, fromSlice_cons_of_ne (by decide +kernel), fromSlice_cons_self]

theorem fromSlice_seeded : (platform documents).fromSlice seededText = some seededJson := by
  rw [documents, fromSlice_cons_of_ne (by decide +kernel), fromSlice_cons_of_ne (by decide +kernel),
    fromSlice_cons_self]

theorem fromSlice_hidden : (platform documents).fromSlice hiddenText = some hiddenJson := by
  rw [documents, fromSlice_cons_of_ne (by decide +kernel), fromSlice_cons_of_ne (by decide +kernel),
    fromSlice_cons_of_ne (by decide +kernel), fromSlice_cons_self]

theorem faithful : Faithful (platform documents) toVec where
  distinct := distinct_of_fromSlice (by decide)
  read_back := by
    intro _ _ _ w text _ h
    unfold toVec at h
    split at h
    · cases h
      exact fromSlice_empty
    · rename_i key number
      split_ifs at h with hid
      cases h
      rw [hid.1, hid.2]
      exact fromSlice_left
    · cases h

theorem strip_seeded :
    stripProxyOwnedMeta (platform documents) toVec seededText = .ok ⟨leftText, ⟨[metaKey]⟩⟩ :=
  (stripProxyOwnedMeta_eq_ok fromSlice_seeded (by decide)).2 ⟨rfl, rfl, rfl⟩

theorem strip_guards_the_body_seeded :
    (∃ w, (platform documents).fromSlice leftText = some w ∧ Guarded seededJson w) ∧
      stripProxyOwnedMeta (platform documents) toVec leftText = .ok ⟨leftText, ⟨[]⟩⟩ ∧
      (SeededMetaPositions.any ⟨[metaKey]⟩ = true ↔ ∃ p, Carries seededJson p) := by
  apply (strip_guards_the_body faithful fromSlice_seeded strip_seeded).2
  intro _ _ _
  refine ⟨[], ⟨[contextMember], rfl, List.mem_singleton.2 rfl⟩, ?_⟩
  exact fun h => not_insideOwnedFrom_nil (insideOwnedFrom_false.2 h)

/-- A `_meta` carried the verified-context key, and the report is empty. -/
theorem hidden_key_is_not_reported :
    Faithful (platform documents) toVec ∧
      (platform documents).fromSlice hiddenText = some hiddenJson ∧
      Carries hiddenJson [.member metaKey, .member requestEvidenceBlockKey.toList] ∧
      stripProxyOwnedMeta (platform documents) toVec hiddenText = .ok ⟨emptyText, ⟨[]⟩⟩ ∧
      SeededMetaPositions.any ⟨[]⟩ = false := by
  refine ⟨faithful, fromSlice_hidden, ⟨[contextMember], rfl, List.mem_singleton.2 rfl⟩, ?_, rfl⟩
  exact (stripProxyOwnedMeta_eq_ok fromSlice_hidden (by decide)).2 ⟨rfl, rfl, rfl⟩

end GuardSample

end McpRe.Http
