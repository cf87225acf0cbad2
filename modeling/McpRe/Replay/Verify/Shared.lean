import McpRe.Replay.Shared
import McpRe.Replay.Verify.Tier

/-!
# Replay safety of a fleet

What was recorded stays recorded until a sweep or a prune reads a clock past its retain-until
(`Held.step`), whichever node recorded it and whichever asks. A second grant of one composite key
therefore comes only after the retention of the first.
-/

namespace McpRe.Replay

open Lib Lib.Result Lib.Run Lib.Text
open McpRe.Http (Platform windowAdmits)

namespace InMemoryAtomicReplayStore

variable (store : InMemoryAtomicReplayStore)

/-! ## One insert -/

theorem seen_sweep (clock : I64) :
    (store.sweep clock).seen = if store.sweepDue then (store.prune clock).seen else store.seen := by
  unfold sweep prune
  split_ifs <;> rfl

/-- What an insert does: it changes nothing, or it sweeps and refuses at the ceiling, or it sweeps
and records. Only the last is `Fresh`. -/
theorem insertIfAbsent_cases (key : Str) (expiresAtUnix nowUnix clock : I64) :
    (store.insertIfAbsent key expiresAtUnix nowUnix clock).1 ≠ .ok .fresh ∧
        (isStalePreStore expiresAtUnix nowUnix = true ∨ (store.seen.lookup key).isSome = true) ∧
        (store.insertIfAbsent key expiresAtUnix nowUnix clock).2 = store ∨
      isStalePreStore expiresAtUnix nowUnix = false ∧ store.seen.lookup key = none ∧
        ((store.insertIfAbsent key expiresAtUnix nowUnix clock).1 ≠ .ok .fresh ∧
            (store.insertIfAbsent key expiresAtUnix nowUnix clock).2 = store.sweep clock ∨
          store.insertIfAbsent key expiresAtUnix nowUnix clock = (.ok .fresh, { store.sweep clock with
            seen := (store.sweep clock).seen.insert key expiresAtUnix })) := by
  unfold insertIfAbsent
  by_cases hstale : isStalePreStore expiresAtUnix nowUnix = true
  · exact .inl (by simp [hstale])
  · rw [if_neg hstale]
    rw [Bool.not_eq_true] at hstale
    by_cases hseen : (store.seen.lookup key).isSome = true
    · exact .inl (by simp [hseen])
    · rw [if_neg hseen]
      refine .inr ⟨hstale, by simpa using hseen, ?_⟩
      by_cases hfull : (store.sweep clock).maxEntries ≤ (store.sweep clock).len
      · exact .inl (by simp [hfull])
      · exact .inr (by simp [hfull])

variable {store}

theorem lookup_prune_of_le {key : Str} {retainUntil clock : I64}
    (h : store.seen.lookup key = some retainUntil) (hle : clock ≤ retainUntil) :
    (store.prune clock).seen.lookup key = some retainUntil := by
  unfold prune
  simp [Table.lookup_retain, h, hle]

theorem lookup_sweep_of_le {key : Str} {retainUntil clock : I64}
    (h : store.seen.lookup key = some retainUntil) (hle : clock ≤ retainUntil) :
    (store.sweep clock).seen.lookup key = some retainUntil := by
  rw [seen_sweep]
  split_ifs
  · exact lookup_prune_of_le h hle
  · exact h

end InMemoryAtomicReplayStore

open InMemoryAtomicReplayStore

/-! ## One event of the fleet -/

section

variable {ι : Type} (P : Platform) (nodes : ι → SharedReplayCache)

abbrev FleetStep (ι : Type) := Step InMemoryAtomicReplayStore (FleetEvent ι) Answer

def Offer.composite (message : Offer ι) : Str :=
  compositeReplayKey P message.key.signer message.key.audience message.key.nonce

def Offer.retainUntil (message : Offer ι) : I64 :=
  skewFoldedRetainUntil message.expires (nodes message.node).maxClockSkewSecs

def Offer.admitted (message : Offer ι) : Bool :=
  windowAdmits message.created message.expires message.reading (nodes message.node).maxClockSkewSecs

def FreshTo (message : Offer ι) (t : FleetStep ι) : Prop :=
  t.event = .offer message t.event.clock ∧ t.answer = .decided (.ok .fresh)

/-- The step refuses a message: outside its window, as a replay, as stale or for want of room. -/
def RefusesOffer (t : FleetStep ι) : Prop :=
  (∃ message, t.event = .offer message t.event.clock) ∧ t.answer ≠ .decided (.ok .fresh)

/-- The step runs the store's inline sweep. -/
def SweepsInline (t : FleetStep ι) : Prop :=
  ∃ message, t.event = .offer message t.event.clock ∧ message.admitted nodes = true ∧
    isStalePreStore (message.retainUntil nodes) 0 = false ∧
    t.before.seen.lookup (message.composite P) = none ∧ t.before.sweepDue = true

def evicted (before after : InMemoryAtomicReplayStore) : Set Str :=
  { key | (before.seen.lookup key).isSome ∧ after.seen.lookup key = none }

variable {store : InMemoryAtomicReplayStore}

theorem fleetStep_offer_of_not_admitted {message : Offer ι} {clock : I64}
    (h : message.admitted nodes = false) :
    fleetStep P nodes store (.offer message clock) = (.staleWindow, store) := by
  unfold fleetStep
  exact if_neg (by rw [Bool.not_eq_true]; exact h)

theorem fleetStep_offer_of_admitted {message : Offer ι} {clock : I64}
    (h : message.admitted nodes = true) :
    fleetStep P nodes store (.offer message clock) =
      let inserted := store.insertIfAbsent (message.composite P) (message.retainUntil nodes) 0 clock
      (.decided (inserted.1.mapError ReplayStoreError.toCacheError), inserted.2) := by
  unfold fleetStep
  exact if_pos h

theorem mapError_ne_fresh {outcome : Except ReplayStoreError ReplayDecision}
    (h : outcome ≠ .ok .fresh) :
    Answer.decided (outcome.mapError ReplayStoreError.toCacheError) ≠ .decided (.ok .fresh) := by
  intro heq
  exact h (mapError_eq_ok.1 (Answer.decided.inj heq))

theorem fleetStep_offer (store : InMemoryAtomicReplayStore) (message : Offer ι) (clock : I64) :
    (fleetStep P nodes store (.offer message clock)).1 ≠ .decided (.ok .fresh) ∧
        (message.admitted nodes = false ∨ isStalePreStore (message.retainUntil nodes) 0 = true ∨
          (store.seen.lookup (message.composite P)).isSome = true) ∧
        (fleetStep P nodes store (.offer message clock)).2 = store ∨
      message.admitted nodes = true ∧ isStalePreStore (message.retainUntil nodes) 0 = false ∧
        store.seen.lookup (message.composite P) = none ∧
        ((fleetStep P nodes store (.offer message clock)).1 ≠ .decided (.ok .fresh) ∧
            (fleetStep P nodes store (.offer message clock)).2 = store.sweep clock ∨
          fleetStep P nodes store (.offer message clock)
            = (.decided (.ok .fresh), { store.sweep clock with
                seen := (store.sweep clock).seen.insert (message.composite P)
                  (message.retainUntil nodes) })) := by
  cases hadmitted : message.admitted nodes with
  | false =>
    rw [fleetStep_offer_of_not_admitted P nodes hadmitted]
    exact .inl ⟨nofun, .inl rfl, rfl⟩
  | true =>
    rw [fleetStep_offer_of_admitted P nodes hadmitted]
    rcases store.insertIfAbsent_cases (message.composite P) (message.retainUntil nodes) 0 clock with
      ⟨hne, hwhy, hsame⟩ | ⟨hstale, hnone, ⟨hne, hswept⟩ | hfresh⟩
    · exact .inl ⟨mapError_ne_fresh hne, .inr hwhy, hsame⟩
    · exact .inr ⟨rfl, hstale, hnone, .inl ⟨mapError_ne_fresh hne, hswept⟩⟩
    · refine .inr ⟨rfl, hstale, hnone, .inr ?_⟩
      simp only [hfresh]
      rfl

/-! ## Retained keys -/

/-- Only a clock past its instant takes a key out. -/
theorem lookup_fleetStep_of_le {key : Str} {retainUntil : I64} {e : FleetEvent ι}
    (hseen : store.seen.lookup key = some retainUntil) (hle : e.clock ≤ retainUntil) :
    (fleetStep P nodes store e).2.seen.lookup key = some retainUntil := by
  cases e with
  | prune clock => exact lookup_prune_of_le hseen hle
  | offer message clock =>
    have hswept : (store.sweep clock).seen.lookup key = some retainUntil :=
      lookup_sweep_of_le hseen hle
    rcases fleetStep_offer P nodes store message clock with
      ⟨_, _, hsame⟩ | ⟨_, _, hnone, ⟨_, hsame⟩ | hfresh⟩
    · rw [hsame]
      exact hseen
    · rw [hsame]
      exact hswept
    · have hne : key ≠ message.composite P := by
        rintro rfl
        rw [hseen] at hnone
        cases hnone
      rw [hfresh]
      exact (AList.lookup_insert_ne hne).trans hswept

theorem fleetStep_eq_fresh {message : Offer ι} {clock : I64}
    (hfresh : (fleetStep P nodes store (.offer message clock)).1 = .decided (.ok .fresh)) :
    message.admitted nodes = true ∧ store.seen.lookup (message.composite P) = none ∧
      (fleetStep P nodes store (.offer message clock)).2.seen.lookup (message.composite P)
        = some (message.retainUntil nodes) := by
  rcases fleetStep_offer P nodes store message clock with
    ⟨hne, _⟩ | ⟨hadmitted, _, hnone, ⟨hne, _⟩ | hstep⟩
  · exact absurd hfresh hne
  · exact absurd hfresh hne
  · refine ⟨hadmitted, hnone, ?_⟩
    rw [hstep]
    exact AList.lookup_insert _

/-- The window of a node ends before what it retains does. -/
theorem Offer.reading_lt_retainUntil {message : Offer ι} (h : message.admitted nodes = true) :
    message.reading < message.retainUntil nodes := by
  simp only [Offer.admitted, windowAdmits, Bool.and_eq_true, decide_eq_true_eq] at h
  exact h.1.2

def FleetTaken (t : FleetStep ι) : Prop :=
  fleetStep P nodes t.before t.event = (t.answer, t.after)

/-! ## The steps of a run -/

variable {P nodes}

theorem FreshTo.step {message : Offer ι} {t : FleetStep ι} (h : FreshTo message t)
    (htaken : FleetTaken P nodes t) :
    message.admitted nodes = true ∧ t.before.seen.lookup (message.composite P) = none ∧
      t.after.seen.lookup (message.composite P) = some (message.retainUntil nodes) := by
  unfold FleetTaken at htaken
  rw [h.1] at htaken
  have hfresh := congrArg Prod.fst htaken
  rw [h.2] at hfresh
  have hrecorded := fleetStep_eq_fresh P nodes hfresh
  rwa [htaken] at hrecorded

theorem RefusesOffer.seen {t : FleetStep ι} (h : RefusesOffer t) (hstep : FleetTaken P nodes t) :
    t.after.seen = t.before.seen ∨ t.after.seen = (t.before.prune t.event.clock).seen := by
  obtain ⟨⟨message, hevent⟩, hne⟩ := h
  unfold FleetTaken at hstep
  rw [hevent] at hstep
  rcases fleetStep_offer P nodes t.before message t.event.clock with
    ⟨_, _, hsame⟩ | ⟨_, _, _, ⟨_, hswept⟩ | hfresh⟩
  · rw [hstep] at hsame
    exact .inl (congrArg InMemoryAtomicReplayStore.seen hsame)
  · rw [hstep] at hswept
    rw [show t.after = _ from hswept, seen_sweep]
    split_ifs
    · exact .inr rfl
    · exact .inl rfl
  · rw [hstep] at hfresh
    exact absurd (congrArg Prod.fst hfresh) hne

theorem SweepsInline.evicted_eq {t : FleetStep ι} (h : SweepsInline P nodes t)
    (hstep : FleetTaken P nodes t) :
    evicted t.before t.after = evicted t.before (t.before.prune t.event.clock) := by
  obtain ⟨message, hevent, hadmitted, hstale, hnone, hdue⟩ := h
  unfold FleetTaken at hstep
  rw [hevent] at hstep
  have hseen : (t.before.sweep t.event.clock).seen = (t.before.prune t.event.clock).seen := by
    rw [seen_sweep, if_pos hdue]
  rcases fleetStep_offer P nodes t.before message t.event.clock with
    ⟨_, hwhy, _⟩ | ⟨_, _, _, ⟨_, hswept⟩ | hfresh⟩
  · simp [hadmitted, hstale, hnone] at hwhy
  · rw [hstep] at hswept
    unfold evicted
    rw [show t.after = _ from hswept, hseen]
  · rw [hstep] at hfresh
    obtain ⟨_, hafter⟩ := Prod.mk.inj hfresh
    ext key
    by_cases hkey : key = message.composite P
    · subst hkey
      simp [evicted, hnone]
    · simp only [evicted, Set.mem_ofPred_eq, hafter, hseen, AList.lookup_insert_ne hkey]

theorem exists_past_of_fresh {store : InMemoryAtomicReplayStore} {events : List (FleetEvent ι)}
    {pre mid post : List (FleetStep ι)} {t t' : FleetStep ι}
    (hrun : trace (fleetStep P nodes) store events = pre ++ t :: (mid ++ t' :: post))
    {message message' : Offer ι} (hkey : message.composite P = message'.composite P)
    (hfresh : FreshTo message t) (hfresh' : FreshTo message' t') :
    ∃ m ∈ mid, message.retainUntil nodes < m.event.clock := by
  have htaken : ∀ u ∈ pre ++ t :: (mid ++ t' :: post), FleetTaken P nodes u := by
    rw [← hrun]
    exact fun u hu => (step_eq_of_mem_trace _ hu).2
  obtain ⟨_, _, hrecorded⟩ := hfresh.step (htaken t (by simp))
  obtain ⟨_, hnone, _⟩ := hfresh'.step (htaken t' (by simp))
  obtain ⟨_, between, _, rfl, hbefore⟩ := exists_between _ hrun
  rcases retained_or
      (I := fun s : InMemoryAtomicReplayStore =>
        s.seen.lookup (message.composite P) = some (message.retainUntil nodes))
      (K := fun _ e => e.clock ≤ message.retainUntil nodes)
      (fun _ _ => lookup_fleetStep_of_le P nodes) hrecorded between with ⟨m, hm, hpast⟩ | hheld
  · exact ⟨m, hm, not_le.1 hpast⟩
  · rw [hbefore, hkey, hnone] at hheld
    cases hheld

/-- **Fleet replay safety**: any number of nodes over one store, each with its own skew, in any
order of their messages, prunes and sweeps, whatever the clocks read.

Of two `Fresh` answers for one composite key the second comes only after an event at a clock past the
instant the first is retained until. If the gate of the second message read no earlier than that
event, the second message is retained longer than the first, so the same message is `Fresh` to no
other node of the same skew. A refused message leaves the map as it was, or as a prune at that clock
leaves it. An inline sweep evicts what a prune at that clock evicts. -/
theorem fleet_replay_safety (P : Platform) (nodes : ι → SharedReplayCache) (maxEntries : Nat)
    (events : List (FleetEvent ι)) :
    let run := trace (fleetStep P nodes) (new.withMaxEntries maxEntries) events
    (∀ (pre mid post : List (FleetStep ι)) (t t' : FleetStep ι),
      run = pre ++ t :: (mid ++ t' :: post) →
      ∀ message message' : Offer ι, message.composite P = message'.composite P →
        FreshTo message t → FreshTo message' t' →
        ∃ m ∈ mid, message.retainUntil nodes < m.event.clock ∧
          (m.event.clock ≤ message'.reading →
            message.retainUntil nodes < message'.retainUntil nodes)) ∧
    (∀ t ∈ run, RefusesOffer t →
      t.after.seen = t.before.seen ∨ t.after.seen = (t.before.prune t.event.clock).seen) ∧
    (∀ t ∈ run, SweepsInline P nodes t →
      evicted t.before t.after = evicted t.before (t.before.prune t.event.clock)) := by
  intro run
  have htaken : ∀ t ∈ run, FleetTaken P nodes t := fun t ht => (step_eq_of_mem_trace _ ht).2
  refine ⟨?_, fun t ht h => h.seen (htaken t ht), fun t ht h => h.evicted_eq (htaken t ht)⟩
  intro pre mid post t t' hrun message message' hkey hfresh hfresh'
  obtain ⟨m, hm, hpast⟩ := exists_past_of_fresh hrun hkey hfresh hfresh'
  refine ⟨m, hm, hpast, fun hreading => ?_⟩
  obtain ⟨hadmitted, _⟩ := hfresh'.step (htaken t' (by rw [hrun]; simp))
  calc message.retainUntil nodes
    _ < m.event.clock := hpast
    _ ≤ message'.reading := hreading
    _ < message'.retainUntil nodes := Offer.reading_lt_retainUntil nodes hadmitted

end

/-- Two nodes with skew 5 and one message with expiry 100. It is refused as a replay until a prune
past 105; a node whose gate read its clock before that prune then gets `Fresh` after it, and one
whose gate reads it after does not reach the store. -/
def sampleFleet : List (FleetEvent Bool) :=
  let message (node : Bool) (reading : I64) : Offer Bool :=
    ⟨node, ⟨"p#k1".toList, "aud".toList, "n1".toList⟩, 0, 100, reading⟩
  [.offer (message false 10) 10, .offer (message true 104) 104, .prune 105,
    .offer (message true 104) 105, .prune 106, .offer (message true 106) 106,
    .offer (message true 104) 106]

theorem fleet_replay_safety_two_nodes :
    let run := trace (fleetStep samplePlatform fun _ => ⟨5⟩) (new.withMaxEntries 2) sampleFleet
    run.map Step.answer = [.decided (.ok .fresh), .decided (.ok .replay), .pruned,
      .decided (.ok .replay), .pruned, .staleWindow, .decided (.ok .fresh)] ∧
    (∀ t ∈ run, RefusesOffer t →
      t.after.seen = t.before.seen ∨ t.after.seen = (t.before.prune t.event.clock).seen) :=
  ⟨rfl, (fleet_replay_safety samplePlatform _ 2 sampleFleet).2.1⟩

end McpRe.Replay
