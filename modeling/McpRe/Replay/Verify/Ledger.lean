import McpRe.Replay.Ledger

/-!
# The ledger's accounting

`Accounted` is what the counters and the two maps of a ledger say about its live reservations and
its retained entries. Each operation on the checked arithmetic ends and keeps it
(`ledgerStepWith_checked`); with the agreement of the two arithmetics that is a statement about the
source's saturating run.
-/

namespace McpRe.Replay

open Lib Lib.Counter Lib.Run Lib.Text

/-! ## The two arithmetics agree -/

namespace LedgerState

theorem agrees_discharge (s : LedgerState) (actor : Str) :
    Agrees (discharge checked s actor) (discharge saturating s actor) := by
  unfold discharge
  cases s.perActor.lookup actor with
  | none => exact .pure _
  | some charged => exact .bind (.sub charged 1) fun _ => .ite (.pure _) (.pure _)

theorem agrees_expire (s : LedgerState) (actor : Str) :
    Agrees (expire checked s actor) (expire saturating s actor) :=
  .bind (.sub _ _) fun _ => agrees_discharge _ _

theorem agrees_prune (s : LedgerState) (now : I64) :
    Agrees (prune checked s now) (prune saturating s now) :=
  .foldlM agrees_expire _ _

theorem agrees_cadence (s : LedgerState) (now : I64) :
    Agrees (cadence checked s now) (cadence saturating s now) :=
  .bind (.add _ _) fun _ => .ite (agrees_prune _ _) (.pure _)

theorem agrees_budgetRefusal (L : RetentionLedger) (s : LedgerState) (actor : Str) (held : Nat) :
    Agrees (budgetRefusal checked L s actor held) (budgetRefusal saturating L s actor held) :=
  .bind (.bind (.sub _ _) fun _ => .pure _) fun _ =>
    .ite (.bind (.bind (.sub _ _) fun _ => .pure _) fun _ => .ite (.pure _) (.pure _)) (.pure _)

theorem agrees_charge (s : LedgerState) (actor : Str) :
    Agrees (charge checked s actor) (charge saturating s actor) :=
  .bind (.add _ _) fun _ => .bind (.add _ _) fun _ => .pure _

theorem agrees_grant (L : RetentionLedger) (s : LedgerState) (actor : Str) :
    Agrees (grant checked L s actor) (grant saturating L s actor) := by
  refine .bind (.add _ _) fun held => .bind (agrees_budgetRefusal _ _ _ _) fun refusal => ?_
  cases refusal with
  | some refusal => exact .pure _
  | none => exact .ite (.pure _) (.bind (agrees_charge _ _) fun _ => .pure _)

theorem agrees_reserve (L : RetentionLedger) (s : LedgerState) (actor : Str) (now : I64) :
    Agrees (reserve checked L s actor now) (reserve saturating L s actor now) :=
  .bind (agrees_cadence _ _) fun _ => agrees_grant _ _ _

theorem agrees_commit (s : LedgerState) (actor : Str) (retainUntil : I64) :
    Agrees (commit checked s actor retainUntil) (commit saturating s actor retainUntil) :=
  .bind (.sub _ _) fun _ => .bind (.add _ _) fun _ => .pure _

theorem agrees_release (s : LedgerState) (actor : Str) :
    Agrees (release checked s actor) (release saturating s actor) :=
  .bind (.sub _ _) fun _ => agrees_discharge _ _

end LedgerState

open LedgerState

theorem agrees_ledgerStep (L : RetentionLedger) (w : Accounts) (e : LedgerEvent) :
    Agrees (ledgerStepWith checked L w e) (ledgerStepWith saturating L w e) := by
  cases e with
  | reserve actor now => exact .bind (agrees_reserve _ _ _ _) fun _ => .pure _
  | prune now => exact .bind (agrees_prune _ _) fun _ => .pure _
  | commit place retainUntil =>
    unfold ledgerStepWith
    dsimp only
    cases w.live[place]? with
    | none => exact .pure _
    | some actor => exact .bind (agrees_commit _ _ _) fun _ => .pure _
  | release place =>
    unfold ledgerStepWith
    dsimp only
    cases w.live[place]? with
    | none => exact .pure _
    | some actor => exact .bind (agrees_release _ _) fun _ => .pure _

/-! ## What a table of charges says -/

/-- The table charges every actor what `f` says, and holds no zero. -/
def Counts (t : Table Str Nat) (f : Str → Nat) : Prop :=
  ∀ a, t.lookup a = if f a = 0 then none else some (f a)

namespace Counts

variable {t : Table Str Nat} {f : Str → Nat}

theorem congr {g : Str → Nat} (h : Counts t f) (hfg : ∀ a, f a = g a) : Counts t g := by
  intro a
  rw [h a, hfg a]

theorem getD (h : Counts t f) (a : Str) : (t.lookup a).getD 0 = f a := by
  rw [h a]
  split_ifs with hzero
  · exact hzero.symm
  · rfl

theorem ne_zero (h : Counts t f) (a : Str) : t.lookup a ≠ some 0 := by
  rw [h a]
  split_ifs with hzero
  · exact nofun
  · exact fun hsome => hzero (Option.some.inj hsome)

theorem insert (h : Counts t f) (a : Str) :
    Counts (t.insert a (f a + 1)) fun b => f b + [a].count b := by
  intro b
  by_cases hb : b = a
  · subst hb
    simp
  · rw [AList.lookup_insert_ne hb, h b]
    simp [Ne.symm hb]

theorem lookup_self {a : Str} (h : Counts t fun b => f b + [a].count b) :
    t.lookup a = some (f a + 1) := by
  rw [h a]
  simp

/-- One charge less; the last one takes the name out. -/
theorem discharge {a : Str} (h : Counts t fun b => f b + [a].count b) :
    Counts (if f a = 0 then t.erase a else t.insert a (f a)) f := by
  intro b
  by_cases hb : b = a
  · subst hb
    split_ifs with hzero
    · exact AList.lookup_erase ..
    · exact AList.lookup_insert _
  · have hother : t.lookup b = if f b = 0 then none else some (f b) := by
      rw [h b]
      simp [Ne.symm hb]
    rw [← hother]
    split_ifs
    · exact AList.lookup_erase_ne hb
    · exact AList.lookup_insert_ne hb

end Counts

def retained (s : LedgerState) (a : Str) : Nat :=
  Table.total (fun _ bucket => bucket.count a) s.byExpiry

def retainedTotal (s : LedgerState) : Nat := Table.total (fun _ bucket => bucket.length) s.byExpiry

/-- The counters and the maps of a ledger agree with its live reservations. -/
structure Accounted (L : RetentionLedger) (live : List Str) (s : LedgerState) : Prop where
  counts : Counts s.perActor fun a => live.count a + retained s a
  committed_eq : s.committed = retainedTotal s
  outstanding_eq : s.outstanding = live.length
  held_le : s.committed + s.outstanding ≤ L.maxEntries
  inserts_lt : s.insertsSincePrune < asyncPruneEveryNInserts

/-! ## The operations on the checked arithmetic -/

namespace LedgerState

theorem discharge_checked {s : LedgerState} {actor : Str} {f : Str → Nat}
    (h : Counts s.perActor fun a => f a + [actor].count a) :
    ∃ t, discharge checked s actor = some { s with perActor := t } ∧ Counts t f := by
  have hsub : checked.sub (f actor + 1) 1 = some (f actor) := checked_sub (Nat.le_add_left 1 _)
  refine ⟨_, ?_, h.discharge⟩
  unfold discharge
  simp only [h.lookup_self, hsub, Option.bind_eq_bind, Option.bind_some]
  split_ifs <;> rfl

theorem foldlM_expire_checked {actors : List Str} {s : LedgerState} {f : Str → Nat}
    (h : Counts s.perActor fun a => f a + actors.count a) (hle : actors.length ≤ s.committed) :
    ∃ t, actors.foldlM (expire checked) s
        = some { s with perActor := t, committed := s.committed - actors.length } ∧
      Counts t f ∧ (actors = [] → t = s.perActor) := by
  induction actors generalizing s with
  | nil => exact ⟨s.perActor, rfl, by simpa using h, fun _ => rfl⟩
  | cons actor actors ih =>
    have hsub : checked.sub s.committed 1 = some (s.committed - 1) :=
      checked_sub (Nat.le_trans (Nat.le_add_left 1 _) hle)
    have hcounts : Counts s.perActor fun a => (f a + actors.count a) + [actor].count a :=
      h.congr fun a => by rw [List.count_cons, List.count_singleton, Nat.add_assoc]
    obtain ⟨t, hdischarge, ht⟩ :=
      discharge_checked (s := { s with committed := s.committed - 1 }) hcounts
    obtain ⟨t', hfold, ht', _⟩ :=
      ih (s := { s with perActor := t, committed := s.committed - 1 }) ht
        (Nat.le_sub_one_of_lt hle)
    refine ⟨t', ?_, ht', fun hnil => by cases hnil⟩
    have hexpire : expire checked s actor
        = some { s with perActor := t, committed := s.committed - 1 } := by
      unfold expire
      rw [hsub]
      exact hdischarge
    rw [List.foldlM_cons, hexpire]
    apply hfold.trans
    rw [List.length_cons, Nat.sub_sub, Nat.add_comm 1]

def pruned (s : LedgerState) (now : I64) : Table I64 (List Str) :=
  Table.retain (fun retainUntil _ => decide (now ≤ retainUntil)) s.byExpiry

theorem retained_eq_add_dead (s : LedgerState) (now : I64) (a : Str) :
    retained s a = retained { s with byExpiry := s.pruned now } a + (s.dead now).count a := by
  unfold retained
  rw [← Table.total_retain_add _ (fun retainUntil _ => decide (now ≤ retainUntil)) s.byExpiry]
  unfold dead Table.total
  rw [List.count_flatMap]
  rfl

theorem retainedTotal_eq_add_dead (s : LedgerState) (now : I64) :
    retainedTotal s = retainedTotal { s with byExpiry := s.pruned now } + (s.dead now).length := by
  unfold retainedTotal
  rw [← Table.total_retain_add _ (fun retainUntil _ => decide (now ≤ retainUntil)) s.byExpiry]
  unfold dead Table.total
  rw [List.length_flatMap]
  rfl

section

variable {L : RetentionLedger} {live : List Str} {s : LedgerState}

theorem prune_checked (h : Accounted L live s) (now : I64) :
    ∃ t, prune checked s now = some { s with
        perActor := t, byExpiry := s.pruned now, committed := s.committed - (s.dead now).length } ∧
      Accounted L live { s with
        perActor := t, byExpiry := s.pruned now, committed := s.committed - (s.dead now).length } ∧
      (s.dead now = [] → t = s.perActor) := by
  have htotal := retainedTotal_eq_add_dead s now
  have hcommitted := h.committed_eq
  have hcounts : Counts s.perActor fun a =>
      (live.count a + retained { s with byExpiry := s.pruned now } a) + (s.dead now).count a :=
    h.counts.congr fun a => by rw [retained_eq_add_dead s now a, Nat.add_assoc]
  obtain ⟨t, hfold, ht, hnil⟩ := foldlM_expire_checked
    (s := { s with byExpiry := s.pruned now }) hcounts
    (show (s.dead now).length ≤ s.committed by omega)
  refine ⟨t, hfold, ⟨ht, ?_, h.outstanding_eq, ?_, h.inserts_lt⟩, hnil⟩
  · change s.committed - _ = retainedTotal { s with byExpiry := s.pruned now }
    omega
  · exact Nat.le_trans (Nat.add_le_add_right (Nat.sub_le ..) _) h.held_le

def prunedWith (s : LedgerState) (now : I64) (t : Table Str Nat) : LedgerState :=
  { s with
    perActor := t
    byExpiry := s.pruned now
    committed := s.committed - (s.dead now).length
    insertsSincePrune := 0 }

theorem cadence_checked (h : Accounted L live s) (now : I64) :
    ∃ s', cadence checked s now = some s' ∧ Accounted L live s' ∧
      (s.insertsSincePrune + 1 < asyncPruneEveryNInserts ∧
          s' = { s with insertsSincePrune := s.insertsSincePrune + 1 } ∨
        asyncPruneEveryNInserts ≤ s.insertsSincePrune + 1 ∧
          ∃ t, s' = s.prunedWith now t ∧ (s.dead now = [] → t = s.perActor)) := by
  have hlt := h.inserts_lt
  have hadd : checked.add s.insertsSincePrune 1 = some (s.insertsSincePrune + 1) := by
    apply checked_add
    unfold asyncPruneEveryNInserts at hlt
    unfold usizeMax
    omega
  unfold cadence
  simp only [hadd, Option.bind_eq_bind, Option.bind_some]
  by_cases hdue : asyncPruneEveryNInserts ≤ s.insertsSincePrune + 1
  · have hreset : Accounted L live { s with insertsSincePrune := 0 } :=
      ⟨h.counts, h.committed_eq, h.outstanding_eq, h.held_le, Nat.zero_lt_succ 63⟩
    obtain ⟨t, hprune, haccounted, hnil⟩ := prune_checked hreset now
    refine ⟨s.prunedWith now t, ?_, haccounted, .inr ⟨hdue, t, rfl, hnil⟩⟩
    rw [if_pos hdue]
    exact hprune
  · have hcount := Nat.not_le.1 hdue
    rw [if_neg hdue]
    exact ⟨_, rfl, ⟨h.counts, h.committed_eq, h.outstanding_eq, h.held_le, hcount⟩,
      .inl ⟨hcount, rfl⟩⟩

theorem spendable_checked (maxEntries : Nat) :
    spendable checked maxEntries = some (maxEntries - maxEntries / asyncReserveDivisor) :=
  checked_sub (Nat.div_le_self ..)

/-- The budget question has an answer, and it is never against an actor that holds nothing. -/
theorem budgetRefusal_checked (L : RetentionLedger) (s : LedgerState) (actor : Str) (held : Nat) :
    ∃ r, budgetRefusal checked L s actor held = some r ∧ (s.chargedTo actor = 0 → r = none) := by
  unfold budgetRefusal underPressure perActorBudget
  simp only [spendable_checked, Option.bind_eq_bind, Option.bind_some, Option.pure_def]
  split_ifs with hpressure hbudget
  · refine ⟨_, rfl, fun hzero => ?_⟩
    rw [hzero] at hbudget
    omega
  · exact ⟨none, rfl, fun _ => rfl⟩
  · exact ⟨none, rfl, fun _ => rfl⟩

theorem chargedTo_le_held (h : Accounted L live s) (actor : Str) :
    s.chargedTo actor ≤ s.committed + s.outstanding := by
  have hlive : live.count actor ≤ live.length := List.count_le_length
  have hretained : retained s actor ≤ retainedTotal s :=
    Table.total_mono (fun _ _ => List.count_le_length) s.byExpiry
  have hcharged : s.chargedTo actor = live.count actor + retained s actor := h.counts.getD actor
  rw [hcharged, h.committed_eq, h.outstanding_eq]
  omega

def granted (s : LedgerState) (actor : Str) : LedgerState :=
  { s with
    perActor := s.perActor.insert actor (s.chargedTo actor + 1)
    outstanding := s.outstanding + 1 }

theorem accounted_granted (h : Accounted L live s) (actor : Str)
    (hroom : s.committed + s.outstanding < L.maxEntries) :
    Accounted L (live ++ [actor]) (s.granted actor) := by
  have hcharged : s.chargedTo actor = live.count actor + retained s actor := h.counts.getD actor
  refine ⟨?_, h.committed_eq, ?_, hroom, h.inserts_lt⟩
  · unfold granted
    rw [hcharged]
    refine (h.counts.insert actor).congr fun a => ?_
    rw [List.count_append]
    change live.count a + retained s a + _ = live.count a + _ + retained s a
    omega
  · change s.outstanding + 1 = _
    rw [List.length_append, h.outstanding_eq]
    rfl

/-- What `reserve` does past the cadence: it refuses and changes nothing, or there is room and it
charges. An actor that holds nothing is refused only for want of room. -/
theorem grant_checked (h : Accounted L live s) (actor : Str) :
    ((∃ e, grant checked L s actor = some (.error e, s)) ∧
      (s.chargedTo actor = 0 → L.maxEntries ≤ s.committed + s.outstanding)) ∨
    (s.committed + s.outstanding < L.maxEntries ∧
      grant checked L s actor = some (.ok actor, s.granted actor)) := by
  have hmax := L.maxEntries_le
  have hheld := h.held_le
  have hcharged := chargedTo_le_held h actor
  have hadd : checked.add s.committed s.outstanding = some (s.committed + s.outstanding) :=
    checked_add (Nat.le_trans hheld hmax)
  obtain ⟨refusal, hrefusal, hnone⟩ :=
    budgetRefusal_checked L s actor (s.committed + s.outstanding)
  unfold grant
  simp only [hadd, hrefusal, Option.bind_eq_bind, Option.bind_some, Option.pure_def]
  cases refusal with
  | some refusal => exact .inl ⟨⟨_, rfl⟩, fun hzero => nomatch hnone hzero⟩
  | none =>
    by_cases hfull : L.maxEntries ≤ s.committed + s.outstanding
    · exact .inl ⟨⟨_, if_pos hfull⟩, fun _ => hfull⟩
    · refine .inr ⟨Nat.not_le.1 hfull, ?_⟩
      have hcharge : charge checked s actor = some (s.granted actor) := by
        unfold charge
        rw [checked_add (by omega), checked_add (by omega)]
        rfl
      simp only [if_neg hfull, hcharge, Option.bind_some]

theorem reserve_checked (h : Accounted L live s) (actor : Str) (now : I64) :
    ∃ s', cadence checked s now = some s' ∧ Accounted L live s' ∧
      ((∃ e, reserve checked L s actor now = some (.error e, s')) ∧
          (s'.chargedTo actor = 0 → L.maxEntries ≤ s'.committed + s'.outstanding) ∨
        s'.committed + s'.outstanding < L.maxEntries ∧
          reserve checked L s actor now = some (.ok actor, s'.granted actor)) := by
  obtain ⟨s', hcadence, h', _⟩ := cadence_checked h now
  have hreserve : reserve checked L s actor now = grant checked L s' actor := by
    unfold reserve
    rw [hcadence]
    rfl
  rw [hreserve]
  exact ⟨s', hcadence, h', grant_checked h' actor⟩

theorem perm_eraseIdx {place : Nat} {actor : Str} (hplace : live[place]? = some actor) :
    live.Perm (actor :: live.eraseIdx place) := by
  obtain ⟨hlt, rfl⟩ := List.getElem?_eq_some_iff.1 hplace
  exact (List.getElem_cons_eraseIdx_perm hlt).symm

theorem total_push (f : I64 → List Str → Nat) (retainUntil : I64) (actor : Str)
    (hnil : f retainUntil [] = 0)
    (hpush : ∀ bucket, f retainUntil (bucket ++ [actor])
      = f retainUntil bucket + f retainUntil [actor]) (t : Table I64 (List Str)) :
    Table.total f (t.insert retainUntil ((t.lookup retainUntil).getD [] ++ [actor]))
      = Table.total f t + f retainUntil [actor] := by
  have hinsert := Table.total_insert f t retainUntil
    ((t.lookup retainUntil).getD [] ++ [actor])
  have hweight : Table.weight f t retainUntil
      = f retainUntil ((t.lookup retainUntil).getD []) := by
    unfold Table.weight
    cases t.lookup retainUntil with
    | none => exact hnil.symm
    | some bucket => rfl
  have := hpush ((t.lookup retainUntil).getD [])
  omega

def retaining (s : LedgerState) (actor : Str) (retainUntil : I64) : LedgerState :=
  { s with
    outstanding := s.outstanding - 1
    committed := s.committed + 1
    byExpiry := s.byExpiry.insert retainUntil
      ((s.byExpiry.lookup retainUntil).getD [] ++ [actor]) }

theorem retained_retaining (s : LedgerState) (actor : Str) (retainUntil : I64) (a : Str) :
    retained (s.retaining actor retainUntil) a = retained s a + [actor].count a :=
  total_push (fun _ bucket => bucket.count a) retainUntil actor List.count_nil
    (fun _ => List.count_append) s.byExpiry

theorem retainedTotal_retaining (s : LedgerState) (actor : Str) (retainUntil : I64) :
    retainedTotal (s.retaining actor retainUntil) = retainedTotal s + 1 :=
  total_push (fun _ bucket => bucket.length) retainUntil actor List.length_nil
    (fun _ => List.length_append) s.byExpiry

variable {actor : Str} {rest : List Str}

theorem commit_checked (h : Accounted L live s) (hperm : live.Perm (actor :: rest))
    (retainUntil : I64) :
    commit checked s actor retainUntil = some (s.retaining actor retainUntil) ∧
      Accounted L rest (s.retaining actor retainUntil) := by
  have hlength : live.length = rest.length + 1 := hperm.length_eq
  have houtstanding := h.outstanding_eq
  have hheld := h.held_le
  have hmax := L.maxEntries_le
  constructor
  · unfold commit
    rw [checked_sub (by omega), checked_add (by omega)]
    rfl
  · refine ⟨?_, ?_, ?_, ?_, h.inserts_lt⟩
    · apply h.counts.congr
      intro a
      rw [retained_retaining, hperm.count_eq a, List.count_cons, List.count_singleton]
      omega
    · change s.committed + 1 = _
      rw [retainedTotal_retaining, h.committed_eq]
    · change s.outstanding - 1 = _
      omega
    · change s.committed + 1 + (s.outstanding - 1) ≤ _
      omega

theorem release_checked (h : Accounted L live s) (hperm : live.Perm (actor :: rest)) :
    ∃ t, release checked s actor
        = some { s with perActor := t, outstanding := s.outstanding - 1 } ∧
      Accounted L rest { s with perActor := t, outstanding := s.outstanding - 1 } ∧
      s.committed + (s.outstanding - 1) < s.committed + s.outstanding := by
  have hlength : live.length = rest.length + 1 := hperm.length_eq
  have houtstanding := h.outstanding_eq
  have hheld := h.held_le
  have hcounts : Counts s.perActor fun a => (rest.count a + retained s a) + [actor].count a :=
    h.counts.congr fun a => by
      rw [hperm.count_eq a, List.count_cons, List.count_singleton]
      omega
  obtain ⟨t, hdischarge, ht⟩ :=
    discharge_checked (s := { s with outstanding := s.outstanding - 1 }) hcounts
  refine ⟨t, ?_, ⟨ht, h.committed_eq, ?_, ?_, h.inserts_lt⟩, by omega⟩
  · unfold release
    rw [checked_sub (by omega)]
    exact hdischarge
  · change s.outstanding - 1 = _
    omega
  · change s.committed + (s.outstanding - 1) ≤ _
    omega

end

end LedgerState

/-! ## Every call keeps the accounts -/

section

variable {L : RetentionLedger} {w : Accounts}

theorem ledgerStepWith_reserve (h : Accounted L w.live w.state) (actor : Str) (now : I64) :
    ∃ s, cadence checked w.state now = some s ∧ Accounted L w.live s ∧
      ((∃ e, ledgerStepWith checked L w (.reserve actor now)
            = some (.reserved (.error e), ⟨s, w.live⟩)) ∧
          (s.chargedTo actor = 0 → L.maxEntries ≤ s.committed + s.outstanding) ∨
        s.committed + s.outstanding < L.maxEntries ∧
          ledgerStepWith checked L w (.reserve actor now)
            = some (.reserved (.ok actor), ⟨s.granted actor, w.live ++ [actor]⟩)) := by
  obtain ⟨s, hcadence, h', ⟨⟨e, hreserve⟩, hroom⟩ | ⟨hroom, hreserve⟩⟩ :=
    reserve_checked h actor now
  · refine ⟨s, hcadence, h', .inl ⟨⟨e, ?_⟩, hroom⟩⟩
    unfold ledgerStepWith
    dsimp only
    rw [hreserve]
    rfl
  · refine ⟨s, hcadence, h', .inr ⟨hroom, ?_⟩⟩
    unfold ledgerStepWith
    dsimp only
    rw [hreserve]
    rfl

theorem ledgerStepWith_prune (h : Accounted L w.live w.state) (now : I64) :
    ∃ s, prune checked w.state now = some s ∧ Accounted L w.live s ∧
      ledgerStepWith checked L w (.prune now) = some (.done, ⟨s, w.live⟩) := by
  obtain ⟨t, hprune, h', _⟩ := prune_checked h now
  refine ⟨_, hprune, h', ?_⟩
  unfold ledgerStepWith
  dsimp only
  rw [hprune]
  rfl

theorem ledgerStepWith_noReservation {e : LedgerEvent} {place : Nat}
    (he : (∃ retainUntil, e = .commit place retainUntil) ∨ e = .release place)
    (hplace : w.live[place]? = none) :
    ledgerStepWith checked L w e = some (.noReservation, w) := by
  rcases he with ⟨retainUntil, rfl⟩ | rfl <;> unfold ledgerStepWith <;> dsimp only <;>
    rw [hplace] <;> rfl

theorem ledgerStepWith_commit (h : Accounted L w.live w.state) {place : Nat} {actor : Str}
    (hplace : w.live[place]? = some actor) (retainUntil : I64) :
    ledgerStepWith checked L w (.commit place retainUntil)
      = some (.done, ⟨w.state.retaining actor retainUntil, w.live.eraseIdx place⟩) := by
  unfold ledgerStepWith
  dsimp only
  rw [hplace]
  dsimp only
  rw [(commit_checked h (perm_eraseIdx hplace) retainUntil).1]
  rfl

theorem ledgerStepWith_release (h : Accounted L w.live w.state) {place : Nat} {actor : Str}
    (hplace : w.live[place]? = some actor) :
    ∃ s, release checked w.state actor = some s ∧ Accounted L (w.live.eraseIdx place) s ∧
      s.committed + s.outstanding < w.state.committed + w.state.outstanding ∧
      ledgerStepWith checked L w (.release place)
        = some (.done, ⟨s, w.live.eraseIdx place⟩) := by
  obtain ⟨t, hrelease, h', hless⟩ := release_checked h (perm_eraseIdx hplace)
  refine ⟨_, hrelease, h', hless, ?_⟩
  unfold ledgerStepWith
  dsimp only
  rw [hplace]
  dsimp only
  rw [hrelease]
  rfl

theorem ledgerStepWith_checked (h : Accounted L w.live w.state) (e : LedgerEvent) :
    ∃ r, ledgerStepWith checked L w e = some r ∧ Accounted L r.2.live r.2.state := by
  cases e with
  | reserve actor now =>
    obtain ⟨s, _, h', ⟨⟨error, hstep⟩, _⟩ | ⟨hroom, hstep⟩⟩ := ledgerStepWith_reserve h actor now
    · exact ⟨_, hstep, h'⟩
    · exact ⟨_, hstep, accounted_granted h' actor hroom⟩
  | prune now =>
    obtain ⟨s, _, h', hstep⟩ := ledgerStepWith_prune h now
    exact ⟨_, hstep, h'⟩
  | commit place retainUntil =>
    cases hplace : w.live[place]? with
    | none => exact ⟨_, ledgerStepWith_noReservation (.inl ⟨retainUntil, rfl⟩) hplace, h⟩
    | some actor =>
      exact ⟨_, ledgerStepWith_commit h hplace retainUntil,
        (commit_checked h (perm_eraseIdx hplace) retainUntil).2⟩
  | release place =>
    cases hplace : w.live[place]? with
    | none => exact ⟨_, ledgerStepWith_noReservation (.inr rfl) hplace, h⟩
    | some actor =>
      obtain ⟨s, _, h', _, hstep⟩ := ledgerStepWith_release h hplace
      exact ⟨_, hstep, h'⟩

end

theorem ledgerStep_eq_of_checked {L : RetentionLedger} {w : Accounts} {e : LedgerEvent}
    {r : LedgerAnswer × Accounts} (h : ledgerStepWith checked L w e = some r) :
    ledgerStep L w e = r :=
  agrees_ledgerStep L w e r h

theorem ledgerStepWith_checked_eq {L : RetentionLedger} {w : Accounts}
    (h : Accounted L w.live w.state) (e : LedgerEvent) :
    ledgerStepWith checked L w e = some (ledgerStep L w e) := by
  obtain ⟨r, hr, _⟩ := ledgerStepWith_checked h e
  rw [hr, ledgerStep_eq_of_checked hr]

theorem accounted_ledgerStep {L : RetentionLedger} {w : Accounts}
    (h : Accounted L w.live w.state) (e : LedgerEvent) :
    Accounted L (ledgerStep L w e).2.live (ledgerStep L w e).2.state := by
  obtain ⟨r, hr, h'⟩ := ledgerStepWith_checked h e
  rw [ledgerStep_eq_of_checked hr]
  exact h'

theorem accounted_empty (L : RetentionLedger) : Accounted L [] .empty :=
  ⟨fun _ => rfl, rfl, rfl, Nat.zero_le _, Nat.zero_lt_succ 63⟩

theorem accounted_final (L : RetentionLedger) (events : List LedgerEvent) :
    Accounted L (final (ledgerStep L) .empty events).live
      (final (ledgerStep L) .empty events).state :=
  (invariant (I := fun w : Accounts => Accounted L w.live w.state)
    (fun _ e h => accounted_ledgerStep h e) (accounted_empty L) events).2

/-- **Ledger accounting**: after any interleaving of calls, an actor is charged its live
reservations and its retained entries and nothing is charged zero; the two counters are the
reservations and the retained entries; together they stay under the ceiling; and whatever call comes
next, no addition or subtraction in it saturates. -/
theorem ledger_accounting (L : RetentionLedger) (events : List LedgerEvent) :
    let w := final (ledgerStep L) .empty events
    (∀ actor, w.state.chargedTo actor
      = w.live.count actor + Table.total (fun _ bucket => bucket.count actor) w.state.byExpiry) ∧
    (∀ actor, w.state.perActor.lookup actor ≠ some 0) ∧
    w.state.committed = Table.total (fun _ bucket => bucket.length) w.state.byExpiry ∧
    w.state.outstanding = w.live.length ∧
    w.state.committed + w.state.outstanding ≤ L.maxEntries ∧
    (∀ e, ledgerStepWith checked L w e = some (ledgerStep L w e)) := by
  intro w
  have h : Accounted L w.live w.state := accounted_final L events
  exact ⟨h.counts.getD, h.counts.ne_zero, h.committed_eq, h.outstanding_eq, h.held_le,
    ledgerStepWith_checked_eq h⟩

end McpRe.Replay
