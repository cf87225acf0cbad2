import McpRe.Replay.Verify.Ledger

/-!
# The reserve and newcomers

The budget splits what is spendable among the actors that hold entries at the time of the call. A
charge taken while there were few actors stays when more appear, so the charges may add up to the
whole ceiling while every reservation was within its budget. Newcomers are admitted in every state
of a run in which no reservation takes the last free entry that way.
-/

namespace McpRe.Replay

open Lib Lib.Counter Lib.Run Lib.Text LedgerState

/-- As long as there are at most `spendable` charged actors, an actor that holds nothing gets its
reservation. -/
def AdmitsNewcomers (L : RetentionLedger) (w : Accounts) : Prop :=
  Table.size w.state.perActor ≤ L.maxEntries - L.maxEntries / asyncReserveDivisor →
    ∀ actor now, w.state.perActor.lookup actor = none →
      (ledgerStep L w (.reserve actor now)).1 = .reserved (.ok actor)

/-- The call is a reservation that is granted, takes the last free entry, and leaves at most
`spendable` actors charged. -/
def SpendsReserve (L : RetentionLedger) (w : Accounts) : LedgerEvent → Prop
  | .reserve actor now =>
    let s := Id.run (cadence saturating w.state now)
    (ledgerStep L w (.reserve actor now)).1 = .reserved (.ok actor) ∧
      s.committed + s.outstanding + 1 = L.maxEntries ∧
      Table.size (s.granted actor).perActor
        ≤ L.maxEntries - L.maxEntries / asyncReserveDivisor
  | _ => False

instance (L : RetentionLedger) (w : Accounts) (e : LedgerEvent) :
    Decidable (SpendsReserve L w e) :=
  match e with
  | .reserve _ _ => inferInstanceAs (Decidable (_ ∧ _ ∧ _))
  | .commit _ _ => inferInstanceAs (Decidable False)
  | .release _ => inferInstanceAs (Decidable False)
  | .prune _ => inferInstanceAs (Decidable False)

/-- There is a free entry, or there are too many actors for the reserve to be promised. -/
def Room (L : RetentionLedger) (s : LedgerState) : Prop :=
  s.committed + s.outstanding < L.maxEntries ∨
    L.maxEntries - L.maxEntries / asyncReserveDivisor < Table.size s.perActor

section

variable {L : RetentionLedger} {live : List Str} {s : LedgerState}

/-! ## One step -/

theorem room_prune (h : Accounted L live s) (hroom : Room L s) {now : I64} {t : Table Str Nat}
    (hnil : s.dead now = [] → t = s.perActor) :
    s.committed - (s.dead now).length + s.outstanding < L.maxEntries ∨
      L.maxEntries - L.maxEntries / asyncReserveDivisor < Table.size t := by
  have hheld := h.held_le
  have htotal := retainedTotal_eq_add_dead s now
  have hcommitted := h.committed_eq
  rcases List.eq_nil_or_concat (s.dead now) with hdead | ⟨init, last, hdead⟩
  · rw [hnil hdead, hdead]
    exact hroom
  · refine .inl ?_
    have hlength : 0 < (s.dead now).length := by rw [hdead]; simp
    omega

theorem room_cadence (h : Accounted L live s) (hroom : Room L s) {now : I64} {s' : LedgerState}
    (hcadence : cadence checked s now = some s') : Room L s' := by
  obtain ⟨s'', hcadence', _, ⟨_, rfl⟩ | ⟨_, t, rfl, hnil⟩⟩ := cadence_checked h now
  · obtain rfl := Option.some.inj (hcadence.symm.trans hcadence')
    exact hroom
  · obtain rfl := Option.some.inj (hcadence.symm.trans hcadence')
    exact room_prune h hroom hnil

theorem room_ledgerStep {w : Accounts} (h : Accounted L w.live w.state) (hroom : Room L w.state)
    {e : LedgerEvent} (hguard : ¬SpendsReserve L w e) : Room L (ledgerStep L w e).2.state := by
  have hheld := h.held_le
  cases e with
  | reserve actor now =>
    obtain ⟨s', hcadence, _, ⟨⟨error, hstep⟩, _⟩ | ⟨hfree, hstep⟩⟩ :=
      ledgerStepWith_reserve h actor now
    · rw [ledgerStep_eq_of_checked hstep]
      exact room_cadence h hroom hcadence
    · have hrun : Id.run (cadence saturating w.state now) = s' := agrees_cadence _ _ _ hcadence
      subst hrun
      -- a last entry that is granted leaves too many actors, by the guard
      rcases Nat.lt_or_eq_of_le (Nat.succ_le_of_lt hfree) with hmore | hlast
      · rw [ledgerStep_eq_of_checked hstep]
        exact .inl hmore
      · have hgranted := congrArg Prod.fst (ledgerStep_eq_of_checked hstep)
        rw [ledgerStep_eq_of_checked hstep]
        exact .inr (Nat.not_le.1 fun hfew => hguard ⟨hgranted, hlast, hfew⟩)
  | prune now =>
    obtain ⟨t, hprune, _, hnil⟩ := prune_checked h now
    obtain ⟨s', hprune', _, hstep⟩ := ledgerStepWith_prune h now
    obtain rfl := Option.some.inj (hprune.symm.trans hprune')
    rw [ledgerStep_eq_of_checked hstep]
    exact room_prune h hroom hnil
  | commit place retainUntil =>
    cases hplace : w.live[place]? with
    | none =>
      rw [ledgerStep_eq_of_checked (ledgerStepWith_noReservation (.inl ⟨retainUntil, rfl⟩) hplace)]
      exact hroom
    | some actor =>
      have hlive : 0 < w.live.length := List.length_pos_of_mem (List.mem_of_getElem? hplace)
      have houtstanding := h.outstanding_eq
      rw [ledgerStep_eq_of_checked (ledgerStepWith_commit h hplace retainUntil)]
      apply hroom.imp_left
      intro hfree
      change w.state.committed + 1 + (w.state.outstanding - 1) < L.maxEntries
      omega
  | release place =>
    cases hplace : w.live[place]? with
    | none =>
      rw [ledgerStep_eq_of_checked (ledgerStepWith_noReservation (.inr rfl) hplace)]
      exact hroom
    | some actor =>
      obtain ⟨s', _, _, hless, hstep⟩ := ledgerStepWith_release h hplace
      rw [ledgerStep_eq_of_checked hstep]
      exact .inl (Nat.lt_of_lt_of_le hless hheld)

theorem cadence_le (h : Accounted L live s) {now : I64} {s' : LedgerState}
    (hcadence : cadence checked s now = some s') :
    s'.committed + s'.outstanding ≤ s.committed + s.outstanding ∧
      ∀ actor, retained s' actor ≤ retained s actor := by
  obtain ⟨s'', hcadence', _, ⟨_, rfl⟩ | ⟨_, t, rfl, _⟩⟩ := cadence_checked h now
  · obtain rfl := Option.some.inj (hcadence.symm.trans hcadence')
    exact ⟨Nat.le_refl _, fun _ => Nat.le_refl _⟩
  · obtain rfl := Option.some.inj (hcadence.symm.trans hcadence')
    refine ⟨Nat.add_le_add_right (Nat.sub_le ..) _, fun actor => ?_⟩
    rw [retained_eq_add_dead s now actor]
    exact Nat.le_add_right ..

theorem admitsNewcomers_of_room {w : Accounts} (h : Accounted L w.live w.state)
    (hroom : Room L w.state) : AdmitsNewcomers L w := by
  intro hfew actor now hnone
  have hfree : w.state.committed + w.state.outstanding < L.maxEntries :=
    hroom.resolve_right (Nat.not_lt.2 hfew)
  have hzero : w.live.count actor + retained w.state actor = 0 := by
    rw [← h.counts.getD actor, hnone]
    rfl
  obtain ⟨s, hcadence, h', ⟨_, hfull⟩ | ⟨_, hstep⟩⟩ := ledgerStepWith_reserve h actor now
  · obtain ⟨hheld, hretained⟩ := cadence_le h hcadence
    have hcharged : s.chargedTo actor = w.live.count actor + retained s actor :=
      h'.counts.getD actor
    have := hretained actor
    have := hfull (by omega)
    omega
  · exact congrArg Prod.fst (ledgerStep_eq_of_checked hstep)

/-! ## The run -/

end

/-! ## A reserve that is kept, and one that is spent -/

/-- A ledger of ten entries, two of them the reserve. -/
def sampleLedger : RetentionLedger := .new 10 (by decide)

def keepingEvents : List LedgerEvent :=
  List.replicate 8 (LedgerEvent.reserve "a".toList 0)
    ++ [LedgerEvent.reserve "b".toList 0, .commit 8 100]

def spendingEvents : List LedgerEvent :=
  List.replicate 8 (LedgerEvent.reserve "a".toList 0)
    ++ List.replicate 2 (LedgerEvent.reserve "b".toList 0)

end McpRe.Replay
