import McpRe.Replay.Tier
import McpRe.Replay.Verify.Ledger

/-!
# No undercharge

The ledger counts without knowing which call a charge is for. `TierAccounted` ties its counts to the
calls: an actor is charged for its calls in flight and for its settled calls that are kept. A nonce
that the store recorded belongs to a call of one of the two kinds until a prune passes its horizon.
-/

namespace McpRe.Replay

open Lib Lib.Counter Lib.Run Lib.Text LedgerState
open McpRe.Http (Platform)

/-! ## Calls -/

/-- Is the charge one that the ledger retains? -/
def Call.kept (call : Call) : Bool :=
  !call.inFlight && (call.charge.settlement != .provenAbsent && !call.expired)

/-- What holds of every call, given the instants pruned at so far. -/
structure Call.WF (prunes : List I64) (call : Call) : Prop where
  waiting : call.inFlight = true →
    call.charge.settlement = .indeterminate ∧ call.expired = false ∧ call.answered = none
  horizon : call.expired = true → ∃ now ∈ prunes, call.charge.retainUntil < now
  absent : call.charge.settlement = .provenAbsent → call.landed = some .replay
  replayed : call.answered = some (.ok .replay) → call.charge.settlement = .provenAbsent

def waitingActors (calls : List Call) : List Str :=
  (calls.filter Call.inFlight).map fun call => call.charge.actor

def keptCount (calls : List Call) (q : I64 → Str → Bool) : Nat :=
  calls.countP fun call => call.kept && q call.charge.retainUntil call.charge.actor

def entryCount (s : LedgerState) (q : I64 → Str → Bool) : Nat :=
  Table.total (fun retainUntil bucket => bucket.countP (q retainUntil)) s.byExpiry

/-- The ledger counts the calls. -/
structure TierAccounted (L : RetentionLedger) (w : Tier) : Prop where
  accounted : Accounted L (waitingActors w.calls) w.ledger
  entries : ∀ q, entryCount w.ledger q = keptCount w.calls q
  wf : ∀ call ∈ w.calls, call.WF w.prunes

theorem waitingActors_append (calls calls' : List Call) :
    waitingActors (calls ++ calls') = waitingActors calls ++ waitingActors calls' := by
  unfold waitingActors
  rw [List.filter_append, List.map_append]

theorem keptCount_append (calls calls' : List Call) (q : I64 → Str → Bool) :
    keptCount (calls ++ calls') q = keptCount calls q + keptCount calls' q :=
  List.countP_append

theorem exists_eq_append {calls : List Call} {id : Nat} {call : Call}
    (h : calls[id]? = some call) :
    ∃ before after, calls = before ++ call :: after ∧
      ∀ call', calls.set id call' = before ++ call' :: after := by
  obtain ⟨hlt, rfl⟩ := List.getElem?_eq_some_iff.1 h
  refine ⟨calls.take id, calls.drop (id + 1), ?_, fun call' => ?_⟩
  · rw [List.getElem_cons_drop, List.take_append_drop]
  · rw [List.set_eq_take_append_cons_drop, if_pos hlt]

/-! ## Prunes -/

theorem Call.kept_expireAt (now : I64) (call : Call) :
    (call.expireAt now).kept = (call.kept && decide (now ≤ call.charge.retainUntil)) := by
  unfold Call.expireAt Call.kept
  by_cases hpast : now ≤ call.charge.retainUntil
  · simp [hpast]
  · cases hflight : call.inFlight <;> simp [hpast, hflight]

theorem Call.charge_expireAt (now : I64) (call : Call) : (call.expireAt now).charge = call.charge := by
  unfold Call.expireAt
  split_ifs <;> rfl

theorem Call.inFlight_expireAt (now : I64) (call : Call) :
    (call.expireAt now).inFlight = call.inFlight := by
  unfold Call.expireAt
  split_ifs <;> rfl

theorem Call.WF.mono {prunes : List I64} {call : Call} (h : call.WF prunes) (now : I64) :
    call.WF (now :: prunes) :=
  ⟨h.waiting, fun hexp => (h.horizon hexp).imp fun _ hp => ⟨List.mem_cons_of_mem _ hp.1, hp.2⟩,
    h.absent, h.replayed⟩

theorem Call.WF.expireAt {prunes : List I64} {call : Call} (h : call.WF prunes) (now : I64) :
    (call.expireAt now).WF (now :: prunes) := by
  unfold Call.expireAt
  split_ifs with hpast
  · have hsettled : call.inFlight = false ∧ call.charge.retainUntil < now := by simpa using hpast
    refine ⟨fun hflight => ?_, fun _ => ⟨now, List.mem_cons_self, hsettled.2⟩, h.absent, h.replayed⟩
    exact absurd hflight (by rw [hsettled.1]; exact Bool.false_ne_true)
  · exact h.mono now

theorem waitingActors_expireAt (calls : List Call) (now : I64) :
    waitingActors (calls.map (Call.expireAt now)) = waitingActors calls := by
  unfold waitingActors
  rw [List.filter_map, List.map_map]
  congr 1
  · funext call
    exact congrArg Charge.actor (call.charge_expireAt now)
  · congr 1
    funext call
    exact call.inFlight_expireAt now

theorem keptCount_expireAt (calls : List Call) (now : I64) (q : I64 → Str → Bool) :
    keptCount (calls.map (Call.expireAt now)) q
      = keptCount calls fun retainUntil actor => decide (now ≤ retainUntil) && q retainUntil actor := by
  unfold keptCount
  rw [List.countP_map]
  congr 1
  funext call
  change ((call.expireAt now).kept && q (call.expireAt now).charge.retainUntil _) = _
  rw [call.kept_expireAt now, call.charge_expireAt now, Bool.and_assoc]

theorem entryCount_pruned (s s' : LedgerState) (now : I64) (q : I64 → Str → Bool)
    (h : s'.byExpiry = s.pruned now) :
    entryCount s' q
      = entryCount s fun retainUntil actor => decide (now ≤ retainUntil) && q retainUntil actor := by
  unfold entryCount
  rw [h]
  unfold pruned
  rw [Table.total_retain]
  congr 1
  funext retainUntil bucket
  by_cases hkeep : now ≤ retainUntil <;> simp [hkeep]

/-! ## One event -/

section

variable {P : Platform} {L : RetentionLedger} {window : FreshnessWindow} {w : Tier}

theorem tierAccounted_cadence (h : TierAccounted L w) {now : I64} {s : LedgerState}
    (hcadence : cadence checked w.ledger now = some s) :
    TierAccounted L { w.notePrune now with ledger := s } := by
  obtain ⟨s', hcadence', haccounted, hcases⟩ := cadence_checked h.accounted now
  obtain rfl := Option.some.inj (hcadence'.symm.trans hcadence)
  unfold Tier.notePrune
  rcases hcases with ⟨hcount, rfl⟩ | ⟨hdue, t, rfl, _⟩
  · rw [if_neg (Nat.not_le.2 hcount)]
    exact ⟨haccounted, h.entries, h.wf⟩
  · rw [if_pos hdue]
    refine ⟨?_, fun q => ?_, ?_⟩
    · dsimp only
      rw [waitingActors_expireAt]
      exact haccounted
    · dsimp only
      rw [keptCount_expireAt, ← h.entries]
      exact entryCount_pruned w.ledger _ now q rfl
    · intro call hcall
      obtain ⟨call, hmem, rfl⟩ := List.mem_map.1 hcall
      exact (h.wf call hmem).expireAt now

theorem tierAccounted_start (h : TierAccounted L w) (key : ReplayKey) (now : I64) :
    TierAccounted L (w.start P L window key now).2 := by
  obtain ⟨s, hcadence, _, hcases⟩ := reserve_checked h.accounted key.principal now
  have h' := tierAccounted_cadence h hcadence
  unfold Tier.start
  rcases hcases with ⟨⟨e, hreserve⟩, _⟩ | ⟨hroom, hreserve⟩
  · have hrun := agrees_reserve _ _ _ _ _ hreserve
    dsimp only
    rw [hrun]
    exact h'
  · have hrun := agrees_reserve _ _ _ _ _ hreserve
    dsimp only
    rw [hrun]
    refine ⟨?_, fun q => ?_, ?_⟩
    · dsimp only
      rw [waitingActors_append]
      exact accounted_granted h'.accounted key.principal hroom
    · dsimp only
      rw [keptCount_append]
      exact h'.entries q
    · intro call hcall
      rcases List.mem_append.1 hcall with hcall | hcall
      · exact h'.wf call hcall
      · obtain rfl := List.mem_singleton.1 hcall
        exact ⟨fun _ => ⟨rfl, rfl, rfl⟩, nofun, nofun, nofun⟩

theorem wf_set {id : Nat} {call : Call} (h : TierAccounted L w) (hwf : call.WF w.prunes) :
    ∀ other ∈ w.calls.set id call, other.WF w.prunes := by
  intro other hother
  rcases List.mem_or_eq_of_mem_set hother with hmem | rfl
  · exact h.wf other hmem
  · exact hwf

theorem perm_waitingActors {calls : List Call} {id : Nat} {call call' : Call}
    (hid : calls[id]? = some call) (hflight : call.inFlight = true)
    (hended : call'.inFlight = false) :
    (waitingActors calls).Perm (call.charge.actor :: waitingActors (calls.set id call')) := by
  obtain ⟨before, after, hcalls, hset⟩ := exists_eq_append hid
  rw [hset, hcalls, waitingActors_append, waitingActors_append]
  simp only [waitingActors, List.filter_cons, hflight, hended, if_true, Bool.false_eq_true,
    if_false, List.map_cons]
  exact List.perm_middle

/-- A call in flight that ends with its charge kept. -/
theorem tierAccounted_keep (h : TierAccounted L w) {id : Nat} {call : Call}
    (hid : w.calls[id]? = some call) (hflight : call.inFlight = true) (call' : Call)
    (hactor : call'.charge.actor = call.charge.actor)
    (hretain : call'.charge.retainUntil = call.charge.retainUntil)
    (hended : call'.inFlight = false) (hkept : call'.kept = true) (hwf : call'.WF w.prunes) :
    w.ledger.commit checked call.charge.actor call.charge.retainUntil
        = some (w.ledger.retaining call.charge.actor call.charge.retainUntil) ∧
      TierAccounted L { w with
        ledger := w.ledger.retaining call.charge.actor call.charge.retainUntil
        calls := w.calls.set id call' } := by
  obtain ⟨before, after, hcalls, hset⟩ := exists_eq_append hid
  have hwaiting := perm_waitingActors hid hflight hended
  obtain ⟨hcommit, haccounted⟩ :=
    commit_checked h.accounted hwaiting call.charge.retainUntil
  refine ⟨hcommit, haccounted, fun q => ?_, wf_set h hwf⟩
  have hentries : entryCount (w.ledger.retaining call.charge.actor call.charge.retainUntil) q
      = entryCount w.ledger q
        + [call.charge.actor].countP (q call.charge.retainUntil) :=
    total_push (fun retainUntil bucket => bucket.countP (q retainUntil)) call.charge.retainUntil
      call.charge.actor List.countP_nil (fun _ => List.countP_append) w.ledger.byExpiry
  have hold : call.kept = false := by
    unfold Call.kept
    rw [hflight]
    rfl
  dsimp only
  rw [hentries, h.entries, hset, hcalls, keptCount_append, keptCount_append]
  simp only [keptCount, List.countP_cons, List.countP_nil, hold, hkept, hactor, hretain,
    Bool.false_and, Bool.true_and, Bool.false_eq_true, if_false]
  omega

/-- A call in flight that ends with its charge handed back. -/
theorem tierAccounted_release (h : TierAccounted L w) {id : Nat} {call : Call}
    (hid : w.calls[id]? = some call) (hflight : call.inFlight = true) (call' : Call)
    (hended : call'.inFlight = false) (hkept : call'.kept = false) (hwf : call'.WF w.prunes) :
    ∃ s, w.ledger.release checked call.charge.actor = some s ∧
      TierAccounted L { w with ledger := s, calls := w.calls.set id call' } := by
  obtain ⟨before, after, hcalls, hset⟩ := exists_eq_append hid
  have hwaiting := perm_waitingActors hid hflight hended
  obtain ⟨t, hrelease, haccounted, _⟩ := release_checked h.accounted hwaiting
  refine ⟨_, hrelease, haccounted, fun q => ?_, wf_set h hwf⟩
  have hold : call.kept = false := by
    unfold Call.kept
    rw [hflight]
    rfl
  dsimp only
  refine (h.entries q).trans ?_
  rw [hset, hcalls, keptCount_append, keptCount_append]
  simp only [keptCount, List.countP_cons, hold, hkept, Bool.false_and]

theorem agrees_drop (charge : Charge) (s : LedgerState) :
    Agrees (charge.drop checked s) (charge.drop saturating s) := by
  unfold Charge.drop
  cases charge.settlement with
  | indeterminate => exact agrees_commit _ _ _
  | retained => exact .pure _
  | provenAbsent => exact .pure _

theorem agrees_settle (charge : Charge) (s : LedgerState)
    (outcome : Except ReplayStoreError ReplayDecision) :
    Agrees (charge.settle checked s outcome) (charge.settle saturating s outcome) := by
  cases outcome with
  | error e => exact .bind (agrees_drop _ _) fun _ => .pure _
  | ok decision =>
    cases decision with
    | fresh => exact .bind (agrees_commit _ _ _) fun _ => .bind (agrees_drop _ _) fun _ => .pure _
    | replay => exact .bind (agrees_release _ _) fun _ => .bind (agrees_drop _ _) fun _ => .pure _

/-- A charge that is dropped unsettled is kept. -/
theorem drop_indeterminate {charge : Charge} {s s' : LedgerState}
    (h : charge.settlement = .indeterminate)
    (hcommit : s.commit checked charge.actor charge.retainUntil = some s') :
    charge.drop checked s = some s' := by
  unfold Charge.drop
  rw [h]
  exact hcommit

theorem tierAccounted_finish (h : TierAccounted L w) {id : Nat} {call : Call}
    (hid : w.calls[id]? = some call) (hflight : call.inFlight = true)
    {outcome : Except ReplayStoreError ReplayDecision}
    (hlanded : ∀ decision, outcome = .ok decision → call.landed = some decision) :
    TierAccounted L (w.finish id call outcome).2 := by
  have hwf := h.wf call (List.mem_of_getElem? hid)
  obtain ⟨hunsettled, hlive, _⟩ := hwf.waiting hflight
  unfold Tier.finish
  cases outcome with
  | error e =>
    obtain ⟨hcommit, h'⟩ := tierAccounted_keep h hid hflight
      { call with
        inFlight := false, answered := some (.error e.toCacheError) }
      rfl rfl rfl (by simp [Call.kept, hunsettled, hlive])
      ⟨nofun, hwf.horizon, hwf.absent, nofun⟩
    have hsettle : call.charge.settle checked w.ledger (.error e)
        = some (call.charge, w.ledger.retaining call.charge.actor call.charge.retainUntil) := by
      unfold Charge.settle
      dsimp only
      rw [drop_indeterminate hunsettled hcommit]
      rfl
    dsimp only
    rw [agrees_settle _ _ _ _ hsettle]
    exact h'
  | ok decision =>
    cases decision with
    | fresh =>
      obtain ⟨hcommit, h'⟩ := tierAccounted_keep h hid hflight
        { call with
          charge := { call.charge with settlement := .retained }
          inFlight := false, answered := some (.ok .fresh) }
        rfl rfl rfl (by simp [Call.kept, hlive]) ⟨nofun, hwf.horizon, nofun, nofun⟩
      have hsettle : call.charge.settle checked w.ledger (.ok .fresh)
          = some ({ call.charge with settlement := .retained },
              w.ledger.retaining call.charge.actor call.charge.retainUntil) := by
        unfold Charge.settle Charge.commit
        dsimp only
        rw [hcommit]
        rfl
      dsimp only
      rw [agrees_settle _ _ _ _ hsettle]
      exact h'
    | replay =>
      obtain ⟨s, hrelease, h'⟩ := tierAccounted_release h hid hflight
        { call with
          charge := { call.charge with settlement := .provenAbsent }
          inFlight := false, answered := some (.ok .replay) }
        rfl rfl ⟨nofun, hwf.horizon, fun _ => hlanded .replay rfl, fun _ => rfl⟩
      have hsettle : call.charge.settle checked w.ledger (.ok .replay)
          = some ({ call.charge with settlement := .provenAbsent }, s) := by
        unfold Charge.settle Charge.releaseProvenAbsent
        dsimp only
        rw [hrelease]
        rfl
      dsimp only
      rw [agrees_settle _ _ _ _ hsettle]
      exact h'

theorem tierAccounted_cancel (h : TierAccounted L w) {id : Nat} {call : Call}
    (hid : w.calls[id]? = some call) (hflight : call.inFlight = true) :
    TierAccounted L { w with
      ledger := Id.run (call.charge.drop saturating w.ledger)
      calls := w.calls.set id { call with inFlight := false } } := by
  have hwf := h.wf call (List.mem_of_getElem? hid)
  obtain ⟨hunsettled, hlive, hsilent⟩ := hwf.waiting hflight
  obtain ⟨hcommit, h'⟩ := tierAccounted_keep h hid hflight
    { call with inFlight := false }
    rfl rfl rfl (by simp [Call.kept, hunsettled, hlive])
    ⟨nofun, hwf.horizon, hwf.absent, hwf.replayed⟩
  rw [agrees_drop _ _ _ (drop_indeterminate hunsettled hcommit)]
  exact h'

/-- An insert that reaches the store changes no charge. -/
theorem tierAccounted_land (h : TierAccounted L w) {id : Nat} {call : Call}
    (hid : w.calls[id]? = some call) (hlanded : call.landed.isSome = false)
    (decision : ReplayDecision) (store : List Str) :
    TierAccounted L { w with
      store := store, calls := w.calls.set id { call with landed := some decision } } := by
  have hwf := h.wf call (List.mem_of_getElem? hid)
  obtain ⟨before, after, hcalls, hset⟩ := exists_eq_append hid
  refine ⟨?_, fun q => (h.entries q).trans ?_, wf_set h ⟨hwf.waiting, hwf.horizon, ?_, hwf.replayed⟩⟩
  · have hwaiting : waitingActors (w.calls.set id { call with landed := some decision })
        = waitingActors w.calls := by
      rw [hset, hcalls, waitingActors_append, waitingActors_append]
      cases hflight : call.inFlight <;> simp [waitingActors, hflight]
    dsimp only
    rw [hwaiting]
    exact h.accounted
  · dsimp only
    rw [hset, hcalls, keptCount_append, keptCount_append]
    rfl
  · intro habsent
    rw [hwf.absent habsent] at hlanded
    cases hlanded

theorem tierAccounted_step (h : TierAccounted L w) (e : TierEvent) :
    TierAccounted L (w.step P L window e).2 := by
  cases e with
  | call key now => exact tierAccounted_start h key now
  | evict composite => exact ⟨h.accounted, h.entries, h.wf⟩
  | foreign composite => exact ⟨h.accounted, h.entries, h.wf⟩
  | land id =>
    unfold Tier.step
    dsimp only
    cases hid : w.calls[id]? with
    | none => exact h
    | some call =>
      cases hlanded : call.landed.isSome with
      | true => simpa [hlanded] using h
      | false =>
        simp only [hlanded, Bool.false_eq_true, if_false]
        exact tierAccounted_land h hid hlanded _ _
  | answer id =>
    unfold Tier.step
    dsimp only
    cases hid : w.calls[id]? with
    | none => exact h
    | some call =>
      dsimp only
      split
      · next decision hflight hlanded =>
        apply tierAccounted_finish h hid hflight
        intro decision' heq
        cases heq
        exact hlanded
      · exact h
  | fail id error =>
    unfold Tier.step
    dsimp only
    cases hid : w.calls[id]? with
    | none => exact h
    | some call =>
      dsimp only
      split_ifs with hflight
      · exact tierAccounted_finish h hid hflight nofun
      · exact h
  | cancel id =>
    unfold Tier.step
    dsimp only
    cases hid : w.calls[id]? with
    | none => exact h
    | some call =>
      dsimp only
      split_ifs with hflight
      · exact tierAccounted_cancel h hid hflight
      · exact h

/-! ## The run -/

theorem tierAccounted_empty (L : RetentionLedger) : TierAccounted L Tier.empty where
  accounted := accounted_empty L
  entries _ := rfl
  wf _ hcall := absurd hcall List.not_mem_nil

theorem tierAccounted_final (P : Platform) (L : RetentionLedger) (window : FreshnessWindow)
    (events : List TierEvent) :
    TierAccounted L (final (Tier.step P L window) .empty events) :=
  (invariant (I := TierAccounted L) (fun _ e h => tierAccounted_step h e)
    (tierAccounted_empty L) events).2

theorem countP_charged (calls : List Call) (actor : Str) :
    (waitingActors calls).count actor + keptCount calls (fun _ a => a == actor)
      = calls.countP fun call => call.charged && call.charge.actor == actor := by
  induction calls with
  | nil => rfl
  | cons call calls ih =>
    simp only [waitingActors, keptCount, List.filter_cons, List.countP_cons] at ih ⊢
    cases hflight : call.inFlight with
    | true =>
      have hcharged : call.charged = true := by simp [Call.charged, hflight]
      have hkept : call.kept = false := by simp [Call.kept, hflight]
      simp only [hcharged, hkept, if_true, List.map_cons, List.count_cons, Bool.true_and,
        Bool.false_and, Bool.false_eq_true, if_false]
      omega
    | false =>
      have hcharged : call.charged = call.kept := by simp [Call.charged, Call.kept, hflight]
      simp only [hcharged, Bool.false_eq_true, if_false]
      omega

theorem chargedTo_eq (h : TierAccounted L w) (actor : Str) :
    w.ledger.chargedTo actor
      = w.calls.countP fun call => call.charged && call.charge.actor == actor := by
  have hcharged : w.ledger.chargedTo actor
      = (waitingActors w.calls).count actor + retained w.ledger actor := h.accounted.counts.getD actor
  have hretained : retained w.ledger actor = keptCount w.calls fun _ a => a == actor :=
    h.entries fun _ a => a == actor
  rw [hcharged, hretained, countP_charged]

theorem charged_of_fresh {prunes : List I64} {call : Call} (h : call.WF prunes)
    (hfresh : call.landed = some .fresh)
    (hhorizon : ∀ now ∈ prunes, now ≤ call.charge.retainUntil) : call.charged = true := by
  have hsettlement : call.charge.settlement ≠ .provenAbsent := by
    intro habsent
    rw [h.absent habsent] at hfresh
    cases hfresh
  have hexpired : call.expired = false := by
    cases hexpired : call.expired with
    | false => rfl
    | true =>
      obtain ⟨now, hmem, hlt⟩ := h.horizon hexpired
      exact absurd hlt (not_lt.2 (hhorizon now hmem))
  simp [Call.charged, hsettlement, hexpired]

/-- **No undercharge**: after any run, a principal is charged exactly for its calls whose charge
stands. The charge of a call stands if the store newly recorded its nonce and no prune so far ran
past its horizon; it does not if the caller was told `Replay`. -/
theorem no_undercharge (P : Platform) (L : RetentionLedger) (window : FreshnessWindow)
    (events : List TierEvent) :
    let w := final (Tier.step P L window) .empty events
    (∀ principal, w.ledger.chargedTo principal
      = w.calls.countP fun call => call.charged && call.charge.actor == principal) ∧
    (∀ call ∈ w.calls, call.landed = some .fresh →
      (∀ now ∈ w.prunes, now ≤ call.charge.retainUntil) → call.charged = true) ∧
    (∀ call ∈ w.calls, call.answered = some (.ok .replay) → call.charged = false) := by
  intro w
  have h : TierAccounted L w := tierAccounted_final P L window events
  refine ⟨chargedTo_eq h, fun call hcall => charged_of_fresh (h.wf call hcall), ?_⟩
  intro call hcall hreplay
  have hwf := h.wf call hcall
  have hended : call.inFlight = false := by
    cases hflight : call.inFlight with
    | false => rfl
    | true => rw [(hwf.waiting hflight).2.2] at hreplay; cases hreplay
  simp [Call.charged, hended, hwf.replayed hreplay]

end

/-! ## Readings out of order

Concurrent callers read the clock before they reach the ledger, so a prune may run at an earlier
reading than the one before it. -/

def keyP : ReplayKey := ⟨"p#k1".toList, "p".toList, "aud".toList, "n1".toList, 100⟩

def keyQ : ReplayKey := ⟨"q#k1".toList, "q".toList, "aud".toList, "n2".toList, 300⟩

/-- SHA-256 on the composite preimages of the two keys. -/
def samplePlatform : Platform where
  sha256 input :=
    if input = utf8 "4:p#k1|3:aud|2:n1".toList then
      ⟨[150, 175, 74, 92, 107, 182, 144, 193, 210, 112, 83, 184, 218, 126, 159, 21, 50, 7, 45, 14,
    23, 163, 71, 116, 228, 109, 244, 185, 98, 245, 1, 217], rfl⟩
    else
      ⟨[186, 110, 23, 59, 113, 94, 153, 58, 196, 222, 57, 204, 210, 77, 40, 182, 134, 94, 189, 204,
    130, 241, 28, 125, 171, 205, 42, 75, 177, 198, 59, 202], rfl⟩
  fromSlice _ := none
  readDocument _ := none
  isPoint _ := false
  verifyStrict _ _ _ := false

/-- A nonce with horizon 100 is recorded and charged; the cadence prunes at 101, and then at 100. -/
def outOfOrderEvents : List TierEvent :=
  [TierEvent.call keyP 0, .land 0, .answer 0] ++ List.replicate 63 (TierEvent.call keyQ 101)
    ++ List.replicate 64 (TierEvent.call keyQ 100)

theorem uncharged_at_most_recent_prune :
    let window : FreshnessWindow := ⟨0, by decide, by decide⟩
    let w := final (Tier.step samplePlatform (.new 1 (by decide)) window) .empty outOfOrderEvents
    w.prunes = [100, 101] ∧
      ∃ call ∈ w.calls, call.landed = some .fresh ∧ call.charge.actor = keyP.principal ∧
        100 ≤ call.charge.retainUntil ∧ w.ledger.chargedTo keyP.principal = 0 := by
  decide +kernel

end McpRe.Replay
