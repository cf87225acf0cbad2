import McpRe.Trust.Cache
import McpRe.Trust.Reload

/-!
# The trust-epoch source

An operator increments a shared counter when the trust store changes. A replica polls the counter
and queues a `FlushAll` when it has moved (`trust_epoch.rs`). The last reading, the queue and the
health are behind locks of their own, so polls interleave with each other and with drains at every
lock; the one lock that is held across another is `last_seen`, while the flush is queued.

A lock that a panic poisoned is taken all the same, so poisoning changes nothing.
-/

namespace McpRe.Trust

open Lib

/-- `TrustEpochSource` beside its reader. Instants are in nanoseconds. -/
structure TrustEpochSource where
  lastSeen : Option I64
  healthy : Bool
  pending : List InvalidationEvent
  lastPoll : Option Nat
  livenessBound : Option Nat
  deriving DecidableEq

namespace TrustEpochSource

def new : TrustEpochSource where
  lastSeen := none
  healthy := true
  pending := []
  lastPoll := none
  livenessBound := none

def requirePollingWithin (self : TrustEpochSource) (bound : Nat) : TrustEpochSource :=
  { self with livenessBound := some bound }

def polledRecently (self : TrustEpochSource) (now : Nat) : Bool :=
  match self.livenessBound with
  | none => true
  | some bound =>
    match self.lastPoll with
    | some instant => decide (now - instant ≤ bound)
    | none => false

def reportPollerGone (self : TrustEpochSource) : TrustEpochSource :=
  { self with healthy := false, lastPoll := none }

def drainPending (self : TrustEpochSource) : List InvalidationEvent × TrustEpochSource :=
  (self.pending, { self with pending := [] })

def isHealthy (self : TrustEpochSource) (now : Nat) : Bool :=
  self.polledRecently now && self.healthy

end TrustEpochSource

def trustEpochMissedPollsTolerated : Nat := 3

/-- The bound that `trust_epoch_poller_body` registers, its seconds saturating in `u64`. -/
def pollerLivenessBound (intervalSecs : Nat) : Nat :=
  let interval := max intervalSecs 1
  min (min (interval * trustEpochMissedPollsTolerated) (2 ^ 64 - 1) + interval) (2 ^ 64 - 1)
    * nanosPerSec

/-! ## Polls that interleave -/

/-- How far a call of `poll_once` has come. -/
inductive Polling where
  | idle
  /-- The poll is recorded, the epoch not yet read. -/
  | begun
  /-- The epoch was read, or could not be. -/
  | read (epoch : Except Unit I64)
  /-- The health is written, `last_seen` not yet locked. -/
  | judged (epoch : I64)
  /-- Holds `last_seen`, which the epoch differs from. -/
  | holding (epoch : I64)
  /-- Holds `last_seen`, with the flush queued. -/
  | queued (epoch : I64)
  deriving DecidableEq

/-- The shared counter, a replica's source, who holds its `last_seen`, and the polls on it. -/
structure EpochPlane where
  epoch : I64
  source : TrustEpochSource
  holder : Option Nat
  polls : Nat → Polling

inductive EpochAction where
  /-- An operator adds to the counter; the store refuses what leaves `i64`. -/
  | increment (amount : Nat)
  | begin (thread : Nat) (now : Nat)
  | read (thread : Nat) (reachable : Bool)
  | judge (thread : Nat)
  | compare (thread : Nat)
  | queue (thread : Nat)
  | advance (thread : Nat)
  | drain
  /-- A poller is set up over the source, or its thread has ended. -/
  | pollerBody (intervalSecs : Nat)
  | pollerGone
  deriving DecidableEq

inductive EpochReply where
  /-- A poll returned, with what it had read. -/
  | polled (thread : Nat) (epoch : Except Unit I64)
  | drained (events : List InvalidationEvent)
  deriving DecidableEq

namespace EpochPlane

def new (epoch : I64) : EpochPlane where
  epoch := epoch
  source := .new
  holder := none
  polls := fun _ => .idle

def moved (s : EpochPlane) (thread : Nat) (stage : Polling) : EpochPlane :=
  { s with polls := Function.update s.polls thread stage }

def step (s : EpochPlane) : EpochAction → Option EpochReply × EpochPlane
  | .increment amount =>
    match I64.ofInt? (s.epoch.val + amount) with
    | some epoch => (none, { s with epoch })
    | none => (none, s)
  | .begin thread now =>
    match s.polls thread with
    | .idle =>
      (none, { s.moved thread .begun with source := { s.source with lastPoll := some now } })
    | _ => (none, s)
  | .read thread reachable =>
    match s.polls thread with
    | .begun => (none, s.moved thread (.read (if reachable then .ok s.epoch else .error ())))
    | _ => (none, s)
  | .judge thread =>
    match s.polls thread with
    | .read (.ok epoch) =>
      (none, { s.moved thread (.judged epoch) with source := { s.source with healthy := true } })
    | .read (.error ()) =>
      (some (.polled thread (.error ())),
        { s.moved thread .idle with source := { s.source with healthy := false } })
    | _ => (none, s)
  | .compare thread =>
    match s.polls thread, s.holder with
    | .judged epoch, none =>
      match s.source.lastSeen with
      -- the first poll establishes the baseline
      | none => (some (.polled thread (.ok epoch)),
          { s.moved thread .idle with source := { s.source with lastSeen := some epoch } })
      | some prev =>
        if epoch ≠ prev then (none, { s.moved thread (.holding epoch) with holder := some thread })
        else (some (.polled thread (.ok epoch)), s.moved thread .idle)
    | _, _ => (none, s)
  | .queue thread =>
    match s.polls thread with
    | .holding epoch =>
      (none, { s.moved thread (.queued epoch) with
        source := { s.source with pending := s.source.pending ++ [.flushAll] } })
    | _ => (none, s)
  | .advance thread =>
    match s.polls thread with
    | .queued epoch =>
      (some (.polled thread (.ok epoch)),
        { s.moved thread .idle with
          source := { s.source with lastSeen := some epoch }, holder := none })
    | _ => (none, s)
  | .drain =>
    (some (.drained s.source.drainPending.1), { s with source := s.source.drainPending.2 })
  | .pollerBody intervalSecs =>
    (none, { s with source := s.source.requirePollingWithin (pollerLivenessBound intervalSecs) })
  | .pollerGone => (none, { s with source := s.source.reportPollerGone })

end EpochPlane

end McpRe.Trust
