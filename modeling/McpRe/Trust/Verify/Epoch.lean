import McpRe.Lib.Run
import McpRe.Trust.Epoch

/-!
# Advances of the trust epoch

Which advances of the counter a replica notices. Once it has a reading, the reading stays behind the
advanced counter until a flush is queued (`Behind.step`), so the next poll that reads the counter
finds it moved. A replica without a reading takes the advanced counter for its first, and queues
nothing (`advance_detected_iff`). What is queued is handed out or still in the queue
(`Accounted.step`).
-/

namespace McpRe.Trust

open Lib Lib.Run

abbrev EpochStep := Step EpochPlane EpochAction (Option EpochReply)

def queuedBy (t : EpochStep) : List InvalidationEvent :=
  if t.after.source.pending = t.before.source.pending ++ [InvalidationEvent.flushAll]
    then [.flushAll] else []

def handedOut (t : EpochStep) : List InvalidationEvent :=
  match t.answer with
  | some (.drained events) => events
  | _ => []

def PollBegan (run : List EpochStep) : Prop :=
  ∃ t ∈ run, ∃ thread now, t.event = .begin thread now ∧ t.before.polls thread = .idle

/-- By the time a poll that begins in the run has read the epoch and returned, a flush has been
queued in it. -/
def Detects (run : List EpochStep) : Prop :=
  ∀ (mid : List EpochStep) (b : EpochStep) (during : List EpochStep) (r : EpochStep)
    (post : List EpochStep) (thread now : Nat) (epoch : I64),
    run = mid ++ b :: (during ++ r :: post) →
    b.event = .begin thread now → b.before.polls thread = .idle →
    r.answer = some (.polled thread (.ok epoch)) →
    ∃ q ∈ mid ++ b :: during, queuedBy q = [.flushAll]

/-! ## What a step can do -/

/-- The epoch a poll has read and not yet returned with. -/
def Polling.epoch? : Polling → Option I64
  | .read (.ok epoch) => some epoch
  | .judged epoch => some epoch
  | .holding epoch => some epoch
  | .queued epoch => some epoch
  | _ => none

inductive EpochMove (s : EpochPlane) : EpochAction → Option EpochReply × EpochPlane → Prop where
  | stay (action : EpochAction) : EpochMove s action (none, s)
  | increment (amount : Nat) (epoch : I64) (hepoch : s.epoch ≤ epoch) :
    EpochMove s (.increment amount) (none, { s with epoch })
  | begin (thread now : Nat) (hidle : s.polls thread = .idle) :
    EpochMove s (.begin thread now)
      (none, { s.moved thread .begun with source := { s.source with lastPoll := some now } })
  | read (thread : Nat) (reachable : Bool) :
    EpochMove s (.read thread reachable)
      (none, s.moved thread (.read (if reachable then .ok s.epoch else .error ())))
  | reached (thread : Nat) (epoch : I64) (hread : s.polls thread = .read (.ok epoch)) :
    EpochMove s (.judge thread)
      (none, { s.moved thread (.judged epoch) with source := { s.source with healthy := true } })
  | failed (thread : Nat) :
    EpochMove s (.judge thread) (some (.polled thread (.error ())),
      { s.moved thread .idle with source := { s.source with healthy := false } })
  | baseline (thread : Nat) (epoch : I64) (hjudged : s.polls thread = .judged epoch)
    (hnone : s.source.lastSeen = none) :
    EpochMove s (.compare thread) (some (.polled thread (.ok epoch)),
      { s.moved thread .idle with source := { s.source with lastSeen := some epoch } })
  | differs (thread : Nat) (epoch prev : I64) (hjudged : s.polls thread = .judged epoch)
    (hsome : s.source.lastSeen = some prev) :
    EpochMove s (.compare thread)
      (none, { s.moved thread (.holding epoch) with holder := some thread })
  | same (thread : Nat) (epoch : I64) (hjudged : s.polls thread = .judged epoch)
    (hsome : s.source.lastSeen = some epoch) :
    EpochMove s (.compare thread) (some (.polled thread (.ok epoch)), s.moved thread .idle)
  | queue (thread : Nat) (epoch : I64) (hholding : s.polls thread = .holding epoch) :
    EpochMove s (.queue thread) (none, { s.moved thread (.queued epoch) with
      source := { s.source with pending := s.source.pending ++ [InvalidationEvent.flushAll] } })
  | advance (thread : Nat) (epoch : I64) (hqueued : s.polls thread = .queued epoch) :
    EpochMove s (.advance thread) (some (.polled thread (.ok epoch)),
      { s.moved thread .idle with
        source := { s.source with lastSeen := some epoch }, holder := none })
  | drain :
    EpochMove s .drain
      (some (.drained s.source.pending), { s with source := { s.source with pending := [] } })
  | poller (action : EpochAction) (source : TrustEpochSource)
    (hseen : source.lastSeen = s.source.lastSeen) (hpending : source.pending = s.source.pending) :
    EpochMove s action (none, { s with source })

theorem epochMove_step (s : EpochPlane) (action : EpochAction) :
    EpochMove s action (s.step action) := by
  cases action with
  | increment amount =>
    cases hsum : I64.ofInt? (s.epoch.val + amount) with
    | none => simpa only [EpochPlane.step, hsum] using .stay _
    | some epoch =>
      have hle : s.epoch ≤ epoch := by
        have := I64.ofInt?_eq_some.1 hsum
        rw [I64.le_iff]
        omega
      simpa only [EpochPlane.step, hsum] using .increment amount epoch hle
  | begin thread now =>
    cases hpoll : s.polls thread with
    | idle => simpa only [EpochPlane.step, hpoll] using .begin thread now hpoll
    | begun | read | judged | holding | queued =>
      simpa only [EpochPlane.step, hpoll] using .stay _
  | read thread reachable =>
    cases hpoll : s.polls thread with
    | begun => simpa only [EpochPlane.step, hpoll] using .read thread reachable
    | idle | read | judged | holding | queued =>
      simpa only [EpochPlane.step, hpoll] using .stay _
  | judge thread =>
    cases hpoll : s.polls thread with
    | read epoch =>
      match epoch with
      | .ok epoch => simpa only [EpochPlane.step, hpoll] using .reached thread epoch hpoll
      | .error () => simpa only [EpochPlane.step, hpoll] using .failed thread
    | idle | begun | judged | holding | queued =>
      simpa only [EpochPlane.step, hpoll] using .stay _
  | compare thread =>
    cases hpoll : s.polls thread with
    | judged epoch =>
      cases hholder : s.holder with
      | some other => simpa only [EpochPlane.step, hpoll, hholder] using .stay _
      | none =>
        cases hseen : s.source.lastSeen with
        | none =>
          simpa only [EpochPlane.step, hpoll, hholder, hseen] using
            .baseline thread epoch hpoll hseen
        | some prev =>
          simp only [EpochPlane.step, hpoll, hholder, hseen]
          split_ifs with hne
          · exact .differs thread epoch prev hpoll hseen
          · obtain rfl : epoch = prev := not_not.1 hne
            exact .same thread epoch hpoll hseen
    | idle | begun | read | holding | queued =>
      simpa only [EpochPlane.step, hpoll] using .stay _
  | queue thread =>
    cases hpoll : s.polls thread with
    | holding epoch => simpa only [EpochPlane.step, hpoll] using .queue thread epoch hpoll
    | idle | begun | read | judged | queued =>
      simpa only [EpochPlane.step, hpoll] using .stay _
  | advance thread =>
    cases hpoll : s.polls thread with
    | queued epoch => simpa only [EpochPlane.step, hpoll] using .advance thread epoch hpoll
    | idle | begun | read | judged | holding =>
      simpa only [EpochPlane.step, hpoll] using .stay _
  | drain => exact .drain
  | pollerBody intervalSecs => exact .poller _ _ rfl rfl
  | pollerGone => exact .poller _ _ rfl rfl

theorem polls_moved (s : EpochPlane) (thread thread' : Nat) (stage : Polling) :
    (s.moved thread stage).polls thread' = if thread' = thread then stage else s.polls thread' :=
  Function.update_apply ..

/-! ## Nothing is ahead of the counter -/

/-- Readings are at most the counter, and only a source with a reading is held. -/
structure Bounded (s : EpochPlane) : Prop where
  seen : ∀ epoch, s.source.lastSeen = some epoch → epoch ≤ s.epoch
  carried : ∀ thread epoch, (s.polls thread).epoch? = some epoch → epoch ≤ s.epoch
  held : s.source.lastSeen = none → s.holder = none

theorem carried_moved {s : EpochPlane} {Q : I64 → Prop} {thread' : Nat}
    (h : ∀ epoch, (s.polls thread').epoch? = some epoch → Q epoch) {thread : Nat} {stage : Polling}
    (hstage : thread' = thread → ∀ epoch, stage.epoch? = some epoch → Q epoch) {epoch : I64}
    (hepoch : ((s.moved thread stage).polls thread').epoch? = some epoch) : Q epoch := by
  rw [polls_moved] at hepoch
  split_ifs at hepoch with heq
  · exact hstage heq epoch hepoch
  · exact h epoch hepoch

theorem Bounded.step {s : EpochPlane} (h : Bounded s) (action : EpochAction) :
    Bounded (s.step action).2 := by
  have hmove := epochMove_step s action
  generalize s.step action = next at hmove
  have hkeeps : ∀ (thread : Nat) (stage : Polling),
      (∀ epoch, stage.epoch? = some epoch → epoch ≤ s.epoch) →
      ∀ thread' epoch, ((s.moved thread stage).polls thread').epoch? = some epoch →
        epoch ≤ s.epoch :=
    fun thread stage hstage thread' epoch hepoch =>
      carried_moved (h.carried thread') (fun _ => hstage) hepoch
  have hidle : ∀ thread thread' epoch, ((s.moved thread .idle).polls thread').epoch? = some epoch →
      epoch ≤ s.epoch := fun thread => hkeeps thread .idle fun _ he => by cases he
  cases hmove with
  | stay => exact h
  | increment amount epoch hle =>
    exact ⟨fun e he => (h.seen e he).trans hle, fun t e he => (h.carried t e he).trans hle, h.held⟩
  | begin thread now => exact ⟨h.seen, hkeeps thread .begun (fun _ he => by cases he), h.held⟩
  | read thread reachable =>
    refine ⟨h.seen, hkeeps thread _ fun epoch hepoch => ?_, h.held⟩
    cases reachable with
    | false => cases hepoch
    | true =>
      obtain rfl : s.epoch = epoch := Option.some.inj hepoch
      exact le_rfl
  | reached thread epoch hread =>
    refine ⟨h.seen, hkeeps thread _ fun e he => ?_, h.held⟩
    exact h.carried thread e (by rw [hread]; exact he)
  | failed thread => exact ⟨h.seen, hidle thread, h.held⟩
  | baseline thread epoch hjudged =>
    refine ⟨fun e he => ?_, hidle thread, fun hnone => (by cases hnone)⟩
    obtain rfl : epoch = e := Option.some.inj he
    exact h.carried thread epoch (by rw [hjudged]; rfl)
  | differs thread epoch prev hjudged hsome =>
    refine ⟨h.seen, hkeeps thread _ fun e he => ?_, fun hnone => ?_⟩
    · exact h.carried thread e (by rw [hjudged]; exact he)
    · rw [show s.source.lastSeen = none from hnone] at hsome
      cases hsome
  | same thread epoch => exact ⟨h.seen, hidle thread, h.held⟩
  | queue thread epoch hholding =>
    refine ⟨h.seen, hkeeps thread _ fun e he => ?_, h.held⟩
    exact h.carried thread e (by rw [hholding]; exact he)
  | advance thread epoch hqueued =>
    refine ⟨fun e he => ?_, hidle thread, fun hnone => (by cases hnone)⟩
    obtain rfl : epoch = e := Option.some.inj he
    exact h.carried thread epoch (by rw [hqueued]; rfl)
  | drain => exact ⟨h.seen, h.carried, h.held⟩
  | poller action source hseen => exact ⟨hseen ▸ h.seen, h.carried, hseen ▸ h.held⟩

theorem bounded_new (epoch : I64) : Bounded (.new epoch) :=
  ⟨fun _ he => (by cases he), fun _ _ he => (by cases he), fun _ => rfl⟩

/-! ## Behind an advance -/

/-- The counter has left `old`, and the source has not seen it: its reading is no newer, nor is what
a poll is about to make it. -/
structure Behind (old : I64) (s : EpochPlane) : Prop where
  epoch : old < s.epoch
  seen : ∃ reading ≤ old, s.source.lastSeen = some reading
  queued : ∀ thread epoch, s.polls thread = .queued epoch → epoch ≤ old

/-- The step queues nothing. -/
def Quiet (s : EpochPlane) (action : EpochAction) : Prop :=
  (s.step action).2.source.pending ≠ s.source.pending ++ [InvalidationEvent.flushAll]

theorem Behind.step {old : I64} {s : EpochPlane} (h : Behind old s) {action : EpochAction}
    (hquiet : Quiet s action) : Behind old (s.step action).2 := by
  have hmove := epochMove_step s action
  unfold Quiet at hquiet
  generalize s.step action = next at hmove hquiet
  have hkeeps : ∀ (thread : Nat) (stage : Polling), (∀ epoch, stage ≠ .queued epoch) →
      ∀ thread' epoch, (s.moved thread stage).polls thread' = .queued epoch → epoch ≤ old := by
    intro thread stage hstage thread' epoch hpoll
    rw [polls_moved] at hpoll
    split_ifs at hpoll
    · exact absurd hpoll (hstage epoch)
    · exact h.queued thread' epoch hpoll
  cases hmove with
  | stay | drain => exact ⟨h.epoch, h.seen, h.queued⟩
  | increment amount epoch hle => exact ⟨h.epoch.trans_le hle, h.seen, h.queued⟩
  | begin thread | read thread | reached thread | failed thread | differs thread | same thread =>
    exact ⟨h.epoch, h.seen, hkeeps thread _ fun _ heq => by cases heq⟩
  | baseline thread epoch hjudged hnone =>
    obtain ⟨reading, -, hsome⟩ := h.seen
    rw [hnone] at hsome
    cases hsome
  | queue => exact absurd rfl hquiet
  | advance thread epoch hqueued =>
    exact ⟨h.epoch, ⟨epoch, h.queued thread epoch hqueued, rfl⟩,
      hkeeps thread .idle fun _ heq => by cases heq⟩
  | poller action source hseen => exact ⟨h.epoch, hseen ▸ h.seen, h.queued⟩

/-- Behind the advance, with a poll that began after it. -/
structure Watched (old : I64) (thread : Nat) (s : EpochPlane) : Prop extends Behind old s where
  fresh : ∀ epoch, (s.polls thread).epoch? = some epoch → old < epoch

theorem Watched.step {old : I64} {thread : Nat} {s : EpochPlane} (h : Watched old thread s)
    {action : EpochAction} (hquiet : Quiet s action) : Watched old thread (s.step action).2 := by
  refine ⟨h.toBehind.step hquiet, ?_⟩
  have hmove := epochMove_step s action
  generalize s.step action = next at hmove
  have hkeeps : ∀ (thread' : Nat) (stage : Polling),
      (thread = thread' → ∀ epoch, stage.epoch? = some epoch → old < epoch) →
      ∀ epoch, ((s.moved thread' stage).polls thread).epoch? = some epoch → old < epoch :=
    fun thread' stage hstage epoch hepoch => carried_moved h.fresh hstage hepoch
  cases hmove with
  | stay | drain | increment | poller => exact h.fresh
  | begin thread' | failed thread' | baseline thread' | same thread' | advance thread' =>
    exact hkeeps thread' _ fun _ _ he => by cases he
  | read thread' reachable =>
    refine hkeeps thread' _ fun _ epoch hepoch => ?_
    cases reachable with
    | false => cases hepoch
    | true =>
      obtain rfl : s.epoch = epoch := Option.some.inj hepoch
      exact h.epoch
  | reached thread' epoch hpoll | differs thread' epoch prev hpoll | queue thread' epoch hpoll =>
    refine hkeeps thread' _ fun heq e he => ?_
    subst heq
    exact h.fresh e (by rw [hpoll]; exact he)

/-- A poll that began after the advance does not return with a reading while the source is
behind. -/
theorem Watched.not_polled {old : I64} {thread : Nat} {s : EpochPlane} (h : Watched old thread s)
    (action : EpochAction) (epoch : I64) :
    (s.step action).1 ≠ some (.polled thread (.ok epoch)) := by
  have hmove := epochMove_step s action
  generalize s.step action = next at hmove
  obtain ⟨reading, hreading, hseen⟩ := h.seen
  intro hreply
  cases hmove with
  | stay | increment | begin | read | reached | failed | differs | queue | drain | poller =>
    cases hreply
  | baseline thread' epoch' hjudged hnone =>
    rw [hnone] at hseen
    cases hseen
  | same thread' epoch' hjudged hsome =>
    cases hreply
    have hfresh := h.fresh epoch (by rw [hjudged]; rfl)
    obtain rfl : reading = epoch := Option.some.inj (hseen.symm.trans hsome)
    exact absurd hfresh hreading.not_gt
  | advance thread' epoch' hqueued =>
    cases hreply
    have hfresh := h.fresh epoch (by rw [hqueued]; rfl)
    exact absurd hfresh (h.queued thread epoch hqueued).not_gt

theorem queuedBy_eq_of_not_quiet {s : EpochPlane} {es : List EpochAction} {t : EpochStep}
    (ht : t ∈ trace EpochPlane.step s es) (h : ¬Quiet t.before t.event) :
    queuedBy t = [.flushAll] := by
  have hstep := (step_eq_of_mem_trace _ ht).2
  rw [Quiet, hstep, not_not] at h
  rw [queuedBy, if_pos h]

/-- **Once there is a reading, an advance is detected.** -/
theorem Behind.detects {old : I64} {s : EpochPlane} (h : Behind old s) (after : List EpochAction) :
    Detects (trace EpochPlane.step s after) := by
  intro mid b during r post thread now epoch hrun hbegin hidle hreply
  obtain ⟨es₁, es₂, -, hmid, htail⟩ := exists_of_trace_eq_append _ hrun
  -- up to the beginning of the poll
  have hstep : ∀ s action, Behind old s → Quiet s action →
      Behind old (EpochPlane.step s action).2 := fun _ _ hs => hs.step
  rcases retained_or hstep h es₁ with ⟨q, hq, hqueues⟩ | hreached
  · refine ⟨q, List.mem_append_left _ (hmid ▸ hq), ?_⟩
    exact queuedBy_eq_of_not_quiet hq hqueues
  cases es₂ with
  | nil => cases htail
  | cons e es₂ =>
    obtain ⟨rfl, hrest⟩ := List.cons.inj htail
    have hwatched : Watched old thread (final EpochPlane.step s es₁) :=
      ⟨hreached, fun _ hepoch => by rw [show _ = Polling.idle from hidle] at hepoch; cases hepoch⟩
    -- from there to its return
    obtain ⟨es₃, es₄, -, rfl, hlast⟩ := exists_of_trace_eq_append _ hrest
    have hstep : ∀ s action, Watched old thread s → Quiet s action →
        Watched old thread (EpochPlane.step s action).2 := fun _ _ hs => hs.step
    rcases retained_or hstep hwatched (e :: es₃) with ⟨q, hq, hqueues⟩ | hheld
    · refine ⟨q, List.mem_append_right _ hq, ?_⟩
      exact queuedBy_eq_of_not_quiet hq hqueues
    · cases es₄ with
      | nil => cases hlast
      | cons e' es₄ =>
        obtain ⟨rfl, -⟩ := List.cons.inj hlast
        exact absurd hreply (hheld.not_polled e' epoch)

/-! ## Without a reading -/

/-- All but finitely many threads are idle. -/
def FinitelyBusy (s : EpochPlane) : Prop :=
  ∃ bound, ∀ thread ≥ bound, s.polls thread = .idle

theorem FinitelyBusy.step {s : EpochPlane} (h : FinitelyBusy s) (action : EpochAction) :
    FinitelyBusy (s.step action).2 := by
  obtain ⟨bound, hbound⟩ := h
  have hmove := epochMove_step s action
  generalize s.step action = next at hmove
  have hmoved : ∀ (thread : Nat) (stage : Polling), FinitelyBusy (s.moved thread stage) := by
    intro thread stage
    refine ⟨max bound (thread + 1), fun thread' hthread => ?_⟩
    rw [polls_moved, if_neg (by omega)]
    exact hbound thread' (by omega)
  cases hmove with
  | stay | increment | drain | poller => exact ⟨bound, hbound⟩
  | begin thread | read thread | reached thread | failed thread | baseline thread | differs thread
  | same thread | queue thread | advance thread => exact hmoved thread _

/-- **Without a reading an advance can be missed**: a poll takes the epoch for the first and
returns. -/
theorem not_detects {s : EpochPlane} {thread : Nat} (hidle : s.polls thread = .idle)
    (hnone : s.source.lastSeen = none) (hfree : s.holder = none) (now : Nat) :
    ¬Detects (trace EpochPlane.step s
      [.begin thread now, .read thread true, .judge thread, .compare thread]) := by
  intro hdetects
  obtain ⟨q, hq, hqueued⟩ := hdetects [] _ [_, _] _ [] thread now s.epoch rfl rfl hidle (by
    simp [EpochPlane.step, hidle, hnone, hfree, EpochPlane.moved])
  have hpending : q.after.source.pending = q.before.source.pending := by
    simp only [List.nil_append, List.mem_cons, List.not_mem_nil, or_false] at hq
    rcases hq with rfl | rfl | rfl <;>
      simp [EpochPlane.step, hidle, EpochPlane.moved]
  rw [queuedBy, if_neg (by rw [hpending]; simp)] at hqueued
  cases hqueued

/-! ## The queue -/

/-- What was handed out, before what is in the queue, is what was queued. -/
def Accounted (past : List EpochStep) (s : EpochPlane) : Prop :=
  past.flatMap handedOut ++ s.source.pending = past.flatMap queuedBy

theorem Accounted.step {past : List EpochStep} {s : EpochPlane} (h : Accounted past s)
    (action : EpochAction) :
    Accounted (past ++ [⟨s, action, (s.step action).1, (s.step action).2⟩])
      (s.step action).2 := by
  have hmove := epochMove_step s action
  generalize s.step action = next at hmove
  have hne : s.source.pending ≠ s.source.pending ++ [InvalidationEvent.flushAll] := by simp
  unfold Accounted at h ⊢
  rw [List.flatMap_append, List.flatMap_append, List.flatMap_singleton, List.flatMap_singleton, ← h]
  cases hmove with
  | stay | increment | begin | read | reached | failed | baseline | differs | same | advance =>
    simp [handedOut, queuedBy, hne, EpochPlane.moved]
  | queue | drain => simp [handedOut, queuedBy]
  | poller action source hseen hpending => simp [handedOut, queuedBy, hpending]

/-- **Advances of the trust epoch.** After an advance that follows the beginning of a poll, every
poll that begins then and reads the epoch finds a flush queued by the time it returns, however the
run goes on, exactly when the source had a reading at the advance. And in every run, what was queued
was handed out or is in the queue. -/
theorem advance_detected_iff (epoch : I64) (before : List EpochAction) (amount : Nat)
    (hadvance : (final EpochPlane.step (.new epoch) before).epoch
      < ((final EpochPlane.step (.new epoch) before).step (.increment amount)).2.epoch) :
    ((PollBegan (trace EpochPlane.step (.new epoch) before) →
        ∀ after : List EpochAction, Detects (trace EpochPlane.step
          ((final EpochPlane.step (.new epoch) before).step (.increment amount)).2 after)) ↔
      (PollBegan (trace EpochPlane.step (.new epoch) before) →
        (final EpochPlane.step (.new epoch) before).source.lastSeen ≠ none)) ∧
    ∀ events : List EpochAction,
      (trace EpochPlane.step (.new epoch) events).flatMap handedOut
          ++ (final EpochPlane.step (.new epoch) events).source.pending
        = (trace EpochPlane.step (.new epoch) events).flatMap queuedBy := by
  constructor
  · have hbounded : Bounded (final EpochPlane.step (.new epoch) before) :=
      (invariant (fun _ action hs => hs.step action) (bounded_new epoch) before).2
    have hbusy : FinitelyBusy (final EpochPlane.step (.new epoch) before) :=
      (invariant (I := FinitelyBusy) (fun _ action hs => hs.step action) ⟨0, fun _ _ => rfl⟩
        before).2
    generalize final EpochPlane.step (.new epoch) before = s at hbounded hbusy hadvance ⊢
    refine imp_congr_right fun _ => ?_
    have hmove := epochMove_step s (.increment amount)
    generalize s.step (.increment amount) = next at hmove hadvance ⊢
    cases hmove with
    | stay => exact absurd hadvance (lt_irrefl _)
    | poller => exact absurd hadvance (lt_irrefl _)
    | increment _ advanced =>
      constructor
      · intro hall hnone
        obtain ⟨thread, hthread⟩ := hbusy
        have hmissed := not_detects (s := { s with epoch := advanced }) (hthread thread le_rfl)
          hnone (hbounded.held hnone) 0
        exact hmissed (hall _)
      · intro hseen after
        obtain ⟨reading, hreading⟩ := Option.ne_none_iff_exists'.1 hseen
        have hqueued : ∀ thread e, s.polls thread = .queued e → e ≤ s.epoch := by
          intro thread e hpoll
          exact hbounded.carried thread e (by rw [hpoll]; rfl)
        have hbehind : Behind s.epoch { s with epoch := advanced } :=
          ⟨hadvance, ⟨reading, hbounded.seen reading hreading, hreading⟩, hqueued⟩
        exact hbehind.detects after
  · intro events
    have hnew : Accounted [] (.new epoch) := rfl
    exact history_final (fun _ _ action hs => hs.step action) hnew events

/-! ## A store that is unreachable at the first poll -/

namespace EpochSample

/-- The first poll cannot read the epoch. -/
def unread : List EpochAction := [.pollerBody 5, .begin 0 0, .read 0 false, .judge 0]

/-- The next one can. -/
def poll : List EpochAction :=
  [.begin 0 (5 * nanosPerSec), .read 0 true, .judge 0, .compare 0]

/-- The plane after the first poll and an increment. -/
def advanced : EpochPlane :=
  ((final EpochPlane.step (.new 7) unread).step (.increment 1)).2

/-- **The advance is taken for the first reading.** The poll began, the epoch moved, the next poll
read it and returned; nothing was queued, and the source calls itself healthy. -/
theorem first_advance_missed :
    PollBegan (trace EpochPlane.step (.new 7) unread) ∧
      (final EpochPlane.step (.new 7) unread).epoch < advanced.epoch ∧
      ¬Detects (trace EpochPlane.step advanced poll) ∧
      (final EpochPlane.step advanced poll).source.pending = [] ∧
      (final EpochPlane.step advanced poll).source.isHealthy (5 * nanosPerSec) = true := by
  refine ⟨?_, by decide, not_detects rfl rfl rfl _, by decide, by decide⟩
  exact ⟨_, List.mem_of_getElem? (i := 1) rfl, 0, 0, rfl, rfl⟩

/-- The first poll reads the epoch. -/
def established : List EpochAction := [.begin 0 0, .read 0 true, .judge 0, .compare 0]

def seen : EpochPlane :=
  ((final EpochPlane.step (.new 7) established).step (.increment 1)).2

theorem advance_after_reading_detected :
    Detects (trace EpochPlane.step seen (poll ++ [EpochAction.queue 0, .advance 0])) ∧
      (final EpochPlane.step seen (poll ++ [EpochAction.queue 0, .advance 0])).source.pending
        = [.flushAll] := by
  have hbegan : PollBegan (trace EpochPlane.step (.new 7) established) :=
    ⟨_, List.mem_of_getElem? (i := 0) rfl, 0, 0, rfl, rfl⟩
  have hall := (advance_detected_iff 7 established 1 (by decide)).1.2 (fun _ => by decide) hbegan
  exact ⟨hall _, by decide⟩

end EpochSample

end McpRe.Trust
