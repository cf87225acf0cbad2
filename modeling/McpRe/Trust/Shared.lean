import McpRe.Trust.Cache

/-!
# Concurrent calls on the bounded cache

`resolve`, `evict`, `clear` and `prune` of one `BoundedTrustCache` that several threads share. A call
reads the clock before it takes the lock, and `resolve` takes the lock twice, with the question to
the inner resolver in between. The clock moves on between any two steps and never back.

A call that missed an entry which only its invalidation keeps from serving carries that entry's
deadline along. As with the moment of an answer, no step reads it.
-/

namespace McpRe.Trust.Shared

open Lib Lib.Text
open McpRe.Http (VerificationKey)

/-- How far a thread's call has come. -/
inductive Call where
  | idle
  /-- `resolve` has read the clock. -/
  | looking (binding : Binding) (now : I64)
  /-- `resolve` has missed, over an invalidated entry with this deadline. -/
  | missed (binding : Binding) (now : I64) (barred : Option I64)
  /-- `resolve` holds the inner resolver's answer, not yet written back. -/
  | resolved (binding : Binding) (now : I64) (barred : Option I64) (resolution : Resolution)
  /-- `evict` has read the clock. -/
  | evicting (binding : Binding) (now : I64)
  /-- `clear` has read the clock. -/
  | clearing (now : I64)

/-- What `resolve` returned: for which pair, at which reading of the clock, and whether the inner
resolver was asked. -/
structure Returned where
  binding : Binding
  now : I64
  resolution : Resolution
  live : Bool
  deriving DecidableEq

/-- The cache, the clock, the threads, and the moment: how many steps there have been. -/
structure State where
  cache : BoundedTrustCache
  clock : I64
  calls : Nat → Call
  moment : Nat

inductive Action where
  /-- The clock moves on to a reading. -/
  | pass (now : I64)
  | resolve (thread : Nat) (binding : Binding)
  | look (thread : Nat)
  /-- The inner resolver answers. -/
  | answer (thread : Nat) (result : Except TrustResolverError VerificationKey)
  | write (thread : Nat)
  | evict (thread : Nat) (binding : Binding)
  | clear (thread : Nat)
  /-- `evict` or `clear` takes the lock. -/
  | invalidate (thread : Nat)
  | prune (now : I64)

/-- The deadline of the invalidated entry that would serve a call. -/
def barred (cache : BoundedTrustCache) (key : Str) (now : I64) : Option I64 :=
  ((cache.cache.lookup key).filter fun entry =>
    entry.invalidated && decide (now < entry.expiresAt)).map (·.expiresAt)

namespace State

def new (cache : BoundedTrustCache) (clock : I64) : State where
  cache
  clock
  calls := fun _ => .idle
  moment := 0

/-- A call moves on and the moment passes. -/
def moved (s : State) (thread : Nat) (call : Call) : State :=
  { s with calls := Function.update s.calls thread call, moment := s.moment + 1 }

/-- Nothing happens: the thread is not at this step. -/
def passed (s : State) : State := { s with moment := s.moment + 1 }

/-- One step, with what the call it ends returns. -/
def step (s : State) : Action → Option Returned × State
  | .pass now => (none, { s.passed with clock := max s.clock now })
  | .resolve thread binding =>
    match s.calls thread with
    | .idle => (none, s.moved thread (.looking binding s.clock))
    | _ => (none, s.passed)
  | .look thread =>
    match s.calls thread with
    | .looking binding now =>
      match s.cache.cached (composeKey binding) now with
      | some resolution => (some ⟨binding, now, resolution, false⟩, s.moved thread .idle)
      | none =>
        (none, s.moved thread (.missed binding now (barred s.cache (composeKey binding) now)))
    | _ => (none, s.passed)
  | .answer thread result =>
    match s.calls thread with
    | .missed binding now barred =>
      (none, s.moved thread (.resolved binding now barred ⟨result, s.moment⟩))
    | _ => (none, s.passed)
  | .write thread =>
    match s.calls thread with
    | .resolved binding now _ resolution =>
      (some ⟨binding, now, resolution, true⟩,
        { s.moved thread .idle with cache := s.cache.remember binding resolution now })
    | _ => (none, s.passed)
  | .evict thread binding =>
    match s.calls thread with
    | .idle => (none, s.moved thread (.evicting binding s.clock))
    | _ => (none, s.passed)
  | .clear thread =>
    match s.calls thread with
    | .idle => (none, s.moved thread (.clearing s.clock))
    | _ => (none, s.passed)
  | .invalidate thread =>
    match s.calls thread with
    | .evicting binding now =>
      (none, { s.moved thread .idle with cache := (s.cache.evict binding now).2 })
    | .clearing now => (none, { s.moved thread .idle with cache := (s.cache.clear now).2 })
    | _ => (none, s.passed)
  | .prune now => (none, { s.passed with cache := s.cache.prune now })

end State

end McpRe.Trust.Shared
