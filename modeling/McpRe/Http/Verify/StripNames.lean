import McpRe.Http.Verify.StripPositions
import McpRe.Lib.Code

/-!
# The names of the reported positions

A position is named by the member names on the way to it, joined as they are. So an empty name at
the root leaves no trace in a name, and a member name that goes on where a sibling's name ends can
spell a position below the sibling. `clash_of_spell_eq` says that positions of one value share a name
in no other way.
-/

namespace McpRe.Http

open Lib Lib.Result Lib.Text Lib.Code

/-! ## The text of a position -/

/-- The text of the steps below a position that has a text. -/
def below : List Step → Str
  | [] => []
  | .member key :: p => '.' :: key ++ below p
  | .index i :: p => '[' :: Nat.toDigits 10 i ++ ']' :: below p

def fromRoot : List Step → Str
  | .member [] :: p => fromRoot p
  | .member key :: p => key ++ below p
  | p => below p

/-- The text that steps add to the text of the position `r`. -/
def after (r p : List Step) : Str :=
  if r.all (· == .member []) then fromRoot p else below p

theorem below_eq_nil {p : List Step} : below p = [] ↔ p = [] := by
  cases p with
  | nil => simp [below]
  | cons s p => cases s <;> simp [below]

theorem memberPath_nil (key : Str) : memberPath [] key = key := rfl

theorem memberPath_of_ne_nil {path : Str} (h : path ≠ []) (key : Str) :
    memberPath path key = path ++ '.' :: key := by
  rw [memberPath, if_neg]
  rwa [List.isEmpty_iff]

theorem memberPath_append (path a x : Str) :
    memberPath path (a ++ x) = memberPath path a ++ x := by
  by_cases h : path = []
  · rw [h, memberPath_nil, memberPath_nil]
  · rw [memberPath_of_ne_nil h, memberPath_of_ne_nil h, List.append_assoc, List.cons_append]

theorem memberPath_eq_nil {path key : Str} : memberPath path key = [] ↔ path = [] ∧ key = [] := by
  by_cases h : path = []
  · simp [h, memberPath_nil]
  · simp [h, memberPath_of_ne_nil h]

theorem memberPath_left_injective {key a b : Str}
    (h : memberPath a key = memberPath b key) : a = b := by
  have hlonger : ∀ c : Str, key ≠ c ++ '.' :: key := by
    intro c heq
    have := congrArg List.length heq
    simp only [List.length_append, List.length_cons] at this
    omega
  by_cases ha : a = [] <;> by_cases hb : b = []
  · rw [ha, hb]
  · rw [ha, memberPath_nil, memberPath_of_ne_nil hb] at h
    exact absurd h (hlonger b)
  · rw [hb, memberPath_nil, memberPath_of_ne_nil ha] at h
    exact absurd h.symm (hlonger a)
  · rw [memberPath_of_ne_nil ha, memberPath_of_ne_nil hb] at h
    exact List.append_cancel_right h

theorem elementPath_ne_nil (path : Str) (i : Nat) : elementPath path i ≠ [] := by
  simp [elementPath]

theorem spell_of_ne_nil {path : Str} (h : path ≠ []) (p : List Step) :
    spell path p = path ++ below p := by
  induction p generalizing path with
  | nil => exact (List.append_nil path).symm
  | cons s p ih =>
    cases s with
    | member key =>
      have hne : memberPath path key ≠ [] := fun heq => h (memberPath_eq_nil.1 heq).1
      rw [spell, ih hne, memberPath_of_ne_nil h, below, List.append_assoc]
    | index i =>
      rw [spell, ih (elementPath_ne_nil path i), elementPath, below]
      simp

theorem spell_nil (p : List Step) : spell [] p = fromRoot p := by
  induction p with
  | nil => rfl
  | cons s p ih =>
    cases s with
    | member key =>
      rw [spell, memberPath_nil]
      cases key with
      | nil => exact ih
      | cons c key => rw [spell_of_ne_nil (List.cons_ne_nil c key), fromRoot]; simp
    | index i =>
      rw [spell, spell_of_ne_nil (elementPath_ne_nil [] i), elementPath, fromRoot, below]
      · simp
      all_goals simp

theorem spell_append (path : Str) (p q : List Step) :
    spell path (p ++ q) = spell (spell path p) q := by
  induction p generalizing path with
  | nil => rfl
  | cons s p ih => cases s <;> exact ih _

theorem spell_eq_nil {p : List Step} : spell [] p = [] ↔ ∀ s ∈ p, s = .member [] := by
  induction p with
  | nil => simp [spell]
  | cons s p ih =>
    cases s with
    | member key =>
      cases key with
      | nil => simp [spell, memberPath_nil, ih]
      | cons c key =>
        rw [spell, memberPath_nil, spell_of_ne_nil (List.cons_ne_nil c key)]
        simp
    | index i =>
      rw [spell, spell_of_ne_nil (elementPath_ne_nil [] i)]
      simp [elementPath_ne_nil]

theorem spell_eq_nil_iff_replicate {p : List Step} :
    spell [] p = [] ↔ p = List.replicate p.length (.member []) := by
  rw [spell_eq_nil, List.eq_replicate_iff]
  simp

theorem spell_append_eq_after (r p : List Step) : spell [] (r ++ p) = spell [] r ++ after r p := by
  rw [spell_append, after]
  have hall : r.all (· == .member []) = true ↔ spell [] r = [] := by
    rw [spell_eq_nil, List.all_eq_true]
    simp
  by_cases h : spell [] r = []
  · rw [if_pos (hall.2 h), h, spell_nil, List.nil_append]
  · rw [if_neg fun hr => h (hall.1 hr), spell_of_ne_nil h]

theorem spell_eq_name {t : Str} (ht : t ≠ []) (hdot : '.' ∉ t) (hbracket : '[' ∉ t) {p : List Step} :
    spell [] p = t ↔ ∃ n, p = List.replicate n (Step.member []) ++ [Step.member t] := by
  constructor
  · intro h
    induction p with
    | nil => exact absurd h.symm ht
    | cons s p ih =>
      cases s with
      | member key =>
        by_cases hkey : key = []
        · subst hkey
          obtain ⟨n, rfl⟩ := ih h
          exact ⟨n + 1, rfl⟩
        · rw [spell, memberPath_nil, spell_of_ne_nil hkey] at h
          subst h
          cases p with
          | nil => exact ⟨0, by simp [below]⟩
          | cons s p => cases s <;> simp [below] at hdot hbracket
      | index i =>
        rw [spell, spell_of_ne_nil (elementPath_ne_nil [] i)] at h
        subst h
        simp [elementPath] at hbracket
  · rintro ⟨n, rfl⟩
    have hempty : spell [] (List.replicate n (.member [])) = [] := by
      rw [spell_eq_nil]
      exact fun s hs => List.eq_of_mem_replicate hs
    rw [spell_append, hempty]
    rfl

theorem spell_eq_params {p : List Step} : spell [] p = "params".toList ↔
    ∃ n, p = List.replicate n (Step.member []) ++ [Step.member "params".toList] :=
  spell_eq_name (by decide) (by decide) (by decide)

/-! ## When two positions share a text -/

/-- `q` spells the text of `p`: it is `p` below empty names, or it leaves `p` at a member whose name
`a ++ x` goes on with the text that `p` has below the sibling `a`. -/
def Clash (path : Str) (p q : List Step) : Prop :=
  (spell path p = [] ∧ p.length < q.length ∧ spell path q = []) ∨
    ∃ r a x p' q', p = r ++ Step.member a :: p' ∧ q = r ++ Step.member (a ++ x) :: q' ∧ x ≠ [] ∧
      spell (memberPath (spell path r) a) p' = spell (memberPath (spell path r) a ++ x) q'

theorem Clash.cons {path : Str} {s : Step} {p q : List Step} (h : Clash (spell path [s]) p q) :
    Clash path (s :: p) (s :: q) := by
  have hspell : ∀ p, spell path (s :: p) = spell (spell path [s]) p := spell_append path [s]
  rcases h with ⟨hp, hlt, hq⟩ | ⟨r, a, x, p', q', rfl, rfl, hx, heq⟩
  · refine .inl ⟨(hspell p).trans hp, Nat.succ_lt_succ hlt, (hspell q).trans hq⟩
  · refine .inr ⟨s :: r, a, x, p', q', rfl, rfl, hx, ?_⟩
    rwa [hspell]

theorem spell_cons_eq_self {path : Str} {s : Step} {p : List Step}
    (h : path = spell path (s :: p)) : path = [] := by
  by_contra hne
  rw [spell_of_ne_nil hne] at h
  have := below_eq_nil.1 (List.self_eq_append_right.1 h)
  cases this

theorem prefix_spell (path : Str) (p : List Step) : path <+: spell path p := by
  by_cases h : path = []
  · rw [h]
    exact List.nil_prefix
  · rw [spell_of_ne_nil h]
    exact List.prefix_append path _

theorem prefix_of_memberPath {path a b : Str} (h : memberPath path a <+: memberPath path b) :
    a <+: b := by
  by_cases hpath : path = []
  · rwa [hpath, memberPath_nil, memberPath_nil] at h
  · rw [memberPath_of_ne_nil hpath, memberPath_of_ne_nil hpath, List.prefix_append_right_inj,
      List.cons_prefix_cons] at h
    exact h.2

theorem clash_of_memberPath {path a b : Str} {p q : List Step} (hab : a ≠ b)
    (hpre : memberPath path a <+: memberPath path b)
    (h : spell path (.member a :: p) = spell path (.member b :: q)) :
    Clash path (.member a :: p) (.member b :: q) := by
  obtain ⟨x, rfl⟩ := prefix_of_memberPath hpre
  have hx : x ≠ [] := by
    rintro rfl
    exact hab (List.append_nil a).symm
  refine .inr ⟨[], a, x, p, q, rfl, rfl, hx, ?_⟩
  rw [spell, ← memberPath_append]
  exact h

theorem clash_of_members {path a b : Str} {p q : List Step} (hab : a ≠ b)
    (h : spell path (.member a :: p) = spell path (.member b :: q)) :
    Clash path (.member a :: p) (.member b :: q) ∨ Clash path (.member b :: q) (.member a :: p) := by
  have ha : memberPath path a <+: spell path (.member a :: p) := prefix_spell _ p
  have hb : memberPath path b <+: spell path (.member a :: p) := h ▸ prefix_spell _ q
  rcases List.prefix_or_prefix_of_prefix ha hb with hpre | hpre
  · exact .inl (clash_of_memberPath hab hpre h)
  · exact .inr (clash_of_memberPath (Ne.symm hab) hpre h.symm)

theorem index_eq_of_spell {path : Str} {i j : Nat} {p q : List Step}
    (h : spell path (.index i :: p) = spell path (.index j :: q)) : i = j := by
  rw [spell, spell, spell_of_ne_nil (elementPath_ne_nil path i),
    spell_of_ne_nil (elementPath_ne_nil path j), elementPath, elementPath] at h
  simp only [List.append_assoc, List.cons_append, List.nil_append, List.append_cancel_left_eq,
    List.cons.injEq, true_and] at h
  exact toDigits_injective (append_cons_inj_left h (notMem_toDigits rfl i) (notMem_toDigits rfl j)).1

theorem not_member_and_index {v x y : Json} {name : Str} {i : Nat}
    (hmember : v.step (.member name) = some x) (hindex : v.step (.index i) = some y) : False := by
  cases v with
  | object fields => cases hindex
  | _ => cases hmember

/-- Positions of one value share a text only if they clash. -/
theorem clash_of_spell_eq {v : Json} {path : Str} {p q : List Step}
    (hp : (v.locate p).isSome) (hq : (v.locate q).isSome) (hne : p ≠ q)
    (h : spell path p = spell path q) : Clash path p q ∨ Clash path q p := by
  induction p generalizing v path q with
  | nil =>
    cases q with
    | nil => exact absurd rfl hne
    | cons t q =>
      have hpath := spell_cons_eq_self h
      exact .inl (.inl ⟨hpath, Nat.succ_pos _, h.symm.trans hpath⟩)
  | cons s p ih =>
    cases q with
    | nil =>
      have hpath := spell_cons_eq_self h.symm
      exact .inr (.inl ⟨hpath, Nat.succ_pos _, h.trans hpath⟩)
    | cons t q =>
      obtain ⟨x, hx, hxp⟩ := Json.exists_step_of_locate hp
      obtain ⟨y, hy, hyq⟩ := Json.exists_step_of_locate hq
      by_cases hst : s = t
      · subst hst
        obtain rfl : x = y := Option.some.inj (hx.symm.trans hy)
        have hrest : p ≠ q := fun heq => hne (congrArg _ heq)
        have hspell : spell (spell path [s]) p = spell (spell path [s]) q := by
          rw [← spell_append, ← spell_append]
          exact h
        exact (ih hxp hyq hrest hspell).imp Clash.cons Clash.cons
      · -- The positions part here, in one object or in one array.
        cases s with
        | member a =>
          cases t with
          | member b => exact clash_of_members (fun hab => hst (congrArg _ hab)) h
          | index j => exact (not_member_and_index hx hy).elim
        | index i =>
          cases t with
          | member b => exact (not_member_and_index hy hx).elim
          | index j => exact absurd (congrArg _ (index_eq_of_spell h)) hst

/-- Leaving the shorter of two names, the texts agree below. -/
theorem spell_eq_iff_after {r p q : List Step} {a x : Str} (hx : x ≠ []) :
    spell [] (r ++ Step.member a :: p) = spell [] (r ++ Step.member (a ++ x) :: q) ↔
      after (r ++ [Step.member a]) p = x ++ below q := by
  have hshort : spell [] (r ++ Step.member a :: p)
      = spell [] (r ++ [Step.member a]) ++ after (r ++ [Step.member a]) p := by
    rw [← spell_append_eq_after, List.append_assoc, List.singleton_append]
  have hlong : spell [] (r ++ Step.member (a ++ x) :: q)
      = spell [] (r ++ [Step.member a]) ++ (x ++ below q) := by
    have hne : memberPath (spell [] r) a ++ x ≠ [] := List.append_ne_nil_of_right_ne_nil _ hx
    rw [spell_append, spell_append, spell, memberPath_append, spell_of_ne_nil hne,
      List.append_assoc]
    rfl
  rw [hshort, hlong, List.append_cancel_left_eq]

/-! ## The report -/

def Seeded (v : Json) (p : List Step) : Prop := Carries v p ∧ ¬InsideOwned p

theorem mem_seeded {v : Json} (hv : v.distinct = true) {p : List Step} :
    p ∈ v.seededIn false ↔ Seeded v p := by
  rw [Json.mem_seededIn hv, insideOwnedFrom_false, Seeded]

theorem Seeded.isSome_locate {v : Json} {p : List Step} (h : Seeded v p) : (v.locate p).isSome := by
  obtain ⟨⟨fields, hfields, -⟩, -⟩ := h
  rw [Json.locate_append] at hfields
  obtain ⟨x, hx, -⟩ := Option.bind_eq_some_iff.1 hfields
  exact Option.isSome_iff_exists.2 ⟨x, hx⟩

theorem positionName_inj {p q : List Step} :
    positionName [] p = positionName [] q ↔ spell [] p = spell [] q := by
  constructor
  · exact fun h => memberPath_left_injective h
  · exact fun h => congrArg (memberPath · metaKey) h

theorem positionName_eq_top {p : List Step} :
    positionName [] p = "_meta".toList ↔ spell [] p = [] :=
  positionName_inj (q := [])

theorem positionName_eq_params {p : List Step} :
    positionName [] p = "params._meta".toList ↔ spell [] p = "params".toList := by
  have hname : positionName [] [.member "params".toList] = "params._meta".toList := by decide
  rw [← hname, positionName_inj]
  rfl

theorem names_singleton {report : SeededMetaPositions} {wanted : String} :
    report.names [wanted] = true ↔ wanted.toList ∈ report.paths := by
  rw [SeededMetaPositions.names, List.any_eq_true]
  simp

/-- The positions that carried the key are reported under different names. -/
def NamedApart (v : Json) : Prop :=
  ∀ p q, Carries v p → Carries v q → p ≠ q →
    p ∈ v.seededIn false ∧ q ∈ v.seededIn false ∧ positionName [] p ≠ positionName [] q

/-- No position is mistaken for another: none is below empty names only, alone or with a `params`
below them, none is spelled by a longer name beside it, and none that carried the key is left out
next to another that did. -/
structure ClearNames (v : Json) : Prop where
  root : ∀ n, ¬Seeded v (List.replicate (n + 1) (Step.member []))
  params : ∀ n, ¬Seeded v (List.replicate (n + 1) (Step.member []) ++ [Step.member "params".toList])
  siblings : ∀ (r : List Step) (a x : Str) (p q : List Step), x ≠ [] →
    Seeded v (r ++ Step.member a :: p) → Seeded v (r ++ Step.member (a ++ x) :: q) → after (r ++ [Step.member a]) p ≠ x ++ below q
  outside : ∀ p q, Carries v p → Carries v q → p ≠ q → ¬InsideOwned p

theorem Clash.false_of_clearNames {v : Json} (hv : ClearNames v) {p q : List Step}
    (hp : Seeded v p) (hq : Seeded v q) (h : Clash [] p q) : False := by
  rcases h with ⟨-, hlt, hempty⟩ | ⟨r, a, x, p', q', rfl, rfl, hx, heq⟩
  · obtain ⟨n, hn⟩ : ∃ n, q.length = n + 1 := Nat.exists_eq_add_one.2 (Nat.zero_lt_of_lt hlt)
    rw [spell_eq_nil_iff_replicate, hn] at hempty
    exact hv.root n (hempty ▸ hq)
  · apply hv.siblings r a x p' q' hx hp hq
    rw [← spell_eq_iff_after hx, spell_append, spell_append, spell, spell, memberPath_append]
    exact heq

theorem namedApart_of_clearNames {v : Json} (hd : v.distinct = true) (hv : ClearNames v) :
    NamedApart v := by
  intro p q hp hq hne
  have hsp : Seeded v p := ⟨hp, hv.outside p q hp hq hne⟩
  have hsq : Seeded v q := ⟨hq, hv.outside q p hq hp (Ne.symm hne)⟩
  refine ⟨(mem_seeded hd).2 hsp, (mem_seeded hd).2 hsq, ?_⟩
  intro hname
  rcases clash_of_spell_eq hsp.isSome_locate hsq.isSome_locate hne (positionName_inj.1 hname)
    with h | h
  · exact h.false_of_clearNames hv hsp hsq
  · exact h.false_of_clearNames hv hsq hsp

section

variable {v : Json} {report : SeededMetaPositions}

theorem mem_paths (hd : v.distinct = true)
    (h : report.paths = (v.seededIn false).map (positionName [])) {name : Str} :
    name ∈ report.paths ↔ ∃ p, Seeded v p ∧ positionName [] p = name := by
  simp only [h, List.mem_map, mem_seeded hd]

theorem topLevel_iff (hd : v.distinct = true)
    (h : report.paths = (v.seededIn false).map (positionName [])) :
    report.topLevel = true ↔ ∃ n, Seeded v (List.replicate n (.member [])) := by
  rw [SeededMetaPositions.topLevel, names_singleton, mem_paths hd h]
  constructor
  · rintro ⟨p, hp, hname⟩
    rw [positionName_eq_top, spell_eq_nil_iff_replicate] at hname
    exact ⟨p.length, hname ▸ hp⟩
  · rintro ⟨n, hn⟩
    refine ⟨_, hn, ?_⟩
    rw [positionName_eq_top, spell_eq_nil]
    exact fun s hs => List.eq_of_mem_replicate hs

theorem paramsObject_iff (hd : v.distinct = true)
    (h : report.paths = (v.seededIn false).map (positionName [])) :
    report.paramsObject = true ↔
      ∃ n, Seeded v (List.replicate n (Step.member []) ++ [Step.member "params".toList]) := by
  rw [SeededMetaPositions.paramsObject, names_singleton, mem_paths hd h]
  constructor
  · rintro ⟨p, hp, hname⟩
    obtain ⟨n, rfl⟩ := spell_eq_params.1 (positionName_eq_params.1 hname)
    exact ⟨n, hp⟩
  · rintro ⟨n, hn⟩
    exact ⟨_, hn, positionName_eq_params.2 (spell_eq_params.2 ⟨n, rfl⟩)⟩

end

theorem seeded_nil {v : Json} : Seeded v [] ↔ Carries v [] := by
  rw [Seeded, and_iff_left]
  exact fun h => not_insideOwnedFrom_nil (insideOwnedFrom_false.2 h)

theorem seeded_singleton {v : Json} {s : Step} : Seeded v [s] ↔ Carries v [s] := by
  rw [Seeded, and_iff_left]
  rintro ⟨q, t, r, h, -⟩
  have := congrArg List.length h
  simp at this
  omega

theorem positions_are_named {P : Platform} {toVec : Json → Option Bytes}
    (hdistinct : ∀ b v, P.fromSlice b = some v → v.distinct = true)
    {body : Bytes} {v : Json} {out : StrippedBody} (hparse : P.fromSlice body = some v)
    (hok : stripProxyOwnedMeta P toVec body = .ok out) :
    out.seeded.paths = (v.seededIn false).map (positionName []) ∧
    (((out.seeded.topLevel = true ↔ Carries v []) ∧
      (out.seeded.paramsObject = true ↔ Carries v [.member "params".toList]) ∧
      NamedApart v) ↔ ClearNames v) := by
  have hd := hdistinct body v hparse
  obtain ⟨-, -, hpaths⟩ := (stripProxyOwnedMeta_eq_ok hparse hd).1 hok
  refine ⟨hpaths, ?_⟩
  rw [topLevel_iff hd hpaths, paramsObject_iff hd hpaths, ← seeded_nil, ← seeded_singleton]
  constructor
  · rintro ⟨htop, hparams, hapart⟩
    have hsame : ∀ {p q}, Seeded v p → Seeded v q → p ≠ q → spell [] p ≠ spell [] q := by
      intro p q hp hq hne heq
      exact (hapart p q hp.1 hq.1 hne).2.2 (positionName_inj.2 heq)
    exact {
      root := by
        intro n hn
        have hempty := spell_eq_nil.2 fun s hs => List.eq_of_mem_replicate hs (n := n + 1)
        exact hsame hn (htop.1 ⟨_, hn⟩) (List.cons_ne_nil _ _) hempty
      params := by
        intro n hn
        refine hsame hn (hparams.1 ⟨_, hn⟩) ?_ (spell_eq_params.2 ⟨n + 1, rfl⟩)
        intro heq
        have := congrArg List.length heq
        simp at this
      siblings := by
        intro r a x p q hx hp hq hafter
        refine hsame hp hq ?_ ((spell_eq_iff_after hx).2 hafter)
        intro heq
        have := (List.cons.inj (List.append_cancel_left heq)).1
        rw [Step.member.injEq, List.self_eq_append_right] at this
        exact hx this
      outside := by
        intro p q hp hq hne
        exact ((mem_seeded hd).1 (hapart p q hp hq hne).1).2 }
  · intro hv
    refine ⟨⟨?_, fun h => ⟨0, h⟩⟩, ⟨?_, fun h => ⟨0, h⟩⟩, namedApart_of_clearNames hd hv⟩
    · rintro ⟨n, hn⟩
      cases n with
      | zero => exact hn
      | succ n => exact absurd hn (hv.root n)
    · rintro ⟨n, hn⟩
      cases n with
      | zero => exact hn
      | succ n => exact absurd hn (hv.params n)

/-! ## Three bodies -/

namespace GuardSample

theorem not_carries_number {text : Str} {p : List Step} : ¬Carries (.number text) p := by
  rintro ⟨fields, hfields, -⟩
  cases p with
  | nil => cases hfields
  | cons s p => cases s <;> cases hfields

theorem not_carries_block {p : List Step} : ¬Carries (.object [contextMember]) p := by
  intro h
  cases p with
  | nil =>
    obtain ⟨fields, hfields, -⟩ := h
    rw [List.nil_append, Json.locate_singleton, Json.step_member_iff (by decide),
      List.mem_singleton] at hfields
    cases hfields
  | cons s p =>
    obtain ⟨child, hs, hchild⟩ := Json.carries_cons.1 h
    cases s with
    | index i => cases hs
    | member key =>
      rw [Json.step_member_iff (by decide), List.mem_singleton] at hs
      cases hs
      exact not_carries_number hchild

theorem eq_nil_of_carries {p : List Step} (h : Carries seededJson p) : p = [] := by
  cases p with
  | nil => rfl
  | cons s p =>
    obtain ⟨child, hs, hchild⟩ := Json.carries_cons.1 h
    cases s with
    | index i => cases hs
    | member key =>
      rw [seededJson, Json.step_member_iff (by decide), List.mem_pair] at hs
      rcases hs with hs | hs
      · cases hs
        exact (not_carries_block hchild).elim
      · cases hs
        exact (not_carries_number hchild).elim

theorem clearNames_seeded : ClearNames seededJson where
  root n h := List.cons_ne_nil _ _ (eq_nil_of_carries h.1)
  params n h := List.cons_ne_nil _ _ (eq_nil_of_carries h.1)
  siblings r a x p q _ h _ := absurd (eq_nil_of_carries h.1) (by simp)
  outside p q hp hq hne := absurd ((eq_nil_of_carries hp).trans (eq_nil_of_carries hq).symm) hne

theorem positions_are_named_seeded :
    (SeededMetaPositions.topLevel ⟨[metaKey]⟩ = true ↔ Carries seededJson []) ∧
      (SeededMetaPositions.paramsObject ⟨[metaKey]⟩ = true ↔
        Carries seededJson [.member "params".toList]) ∧
      NamedApart seededJson :=
  (positions_are_named faithful.distinct fromSlice_seeded strip_seeded).2.2 clearNames_seeded

/-- The key below an empty name. -/
def unnamedJson : Json := .object [([], .object [(metaKey, .object [contextMember])])]

def unnamedText : Bytes :=
  utf8 "\x7b\"\":\x7b\"_meta\":\x7b\"se.syncom/mcp-re.verified-context\":1\x7d\x7d\x7d".toList

/-- The key in `b` of `a`, and in `a.b`. -/
def dottedJson : Json :=
  .object [(['a'], .object [(['b'], .object [(metaKey, .object [contextMember])])]),
    ("a.b".toList, .object [(metaKey, .object [contextMember])])]

def dottedText : Bytes :=
  utf8 ("\x7b\"a\":\x7b\"b\":\x7b\"_meta\":\x7b\"se.syncom/mcp-re.verified-context\":1\x7d\x7d\x7d,"
    ++ "\"a.b\":\x7b\"_meta\":\x7b\"se.syncom/mcp-re.verified-context\":1\x7d\x7d\x7d").toList

def named : List (Bytes × Json) := [(unnamedText, unnamedJson), (dottedText, dottedJson)]

def printNamed : Json → Option Bytes
  | .object [([], .object [])] => some (utf8 "\x7b\"\":\x7b\x7d\x7d".toList)
  | .object [(['a'], .object [(['b'], .object [])]), (['a', '.', 'b'], .object [])] =>
    some (utf8 "\x7b\"a\":\x7b\"b\":\x7b\x7d\x7d,\"a.b\":\x7b\x7d\x7d".toList)
  | _ => none

theorem fromSlice_unnamed : (platform named).fromSlice unnamedText = some unnamedJson :=
  fromSlice_cons_self

theorem fromSlice_dotted : (platform named).fromSlice dottedText = some dottedJson := by
  rw [named, fromSlice_cons_of_ne (by decide +kernel), fromSlice_cons_self]

/-- The report names the top level where there was no `_meta`, and names two positions alike. -/
theorem positions_mistaken :
    (∀ b v, (platform named).fromSlice b = some v → v.distinct = true) ∧
      ((platform named).fromSlice unnamedText = some unnamedJson ∧
        ¬Carries unnamedJson [] ∧
        ∃ out, stripProxyOwnedMeta (platform named) printNamed unnamedText = .ok out ∧
          out.seeded.topLevel = true) ∧
      ((platform named).fromSlice dottedText = some dottedJson ∧
        Carries dottedJson [.member ['a'], .member ['b']] ∧
        Carries dottedJson [.member "a.b".toList] ∧
        ∃ out, stripProxyOwnedMeta (platform named) printNamed dottedText = .ok out ∧
          out.seeded.paths = ["a.b._meta".toList, "a.b._meta".toList]) := by
  refine ⟨distinct_of_fromSlice (by decide), ⟨fromSlice_unnamed, ?_, ?_⟩, ⟨fromSlice_dotted,
    ⟨[contextMember], rfl, List.mem_singleton.2 rfl⟩,
    ⟨[contextMember], rfl, List.mem_singleton.2 rfl⟩, ?_⟩⟩
  · rintro ⟨fields, hfields, -⟩
    cases hfields
  · exact ⟨⟨_, ⟨[metaKey]⟩⟩,
      (stripProxyOwnedMeta_eq_ok fromSlice_unnamed (by decide)).2 ⟨rfl, rfl, rfl⟩, rfl⟩
  · exact ⟨⟨_, ⟨_⟩⟩,
      (stripProxyOwnedMeta_eq_ok fromSlice_dotted (by decide)).2 ⟨rfl, rfl, rfl⟩, by decide⟩

end GuardSample

end McpRe.Http
