import McpRe.Http.Digest
import McpRe.Lib.I64
import McpRe.Lib.Run
import McpRe.Lib.Table
import McpRe.Replay.Tier

/-!
# The push-invalidation trust cache

`BoundedTrustCache` (`trust_plane/trust_cache.rs`) and the `PushInvalidationTrustCache` over it
(`trust_plane/push_trust.rs`). The lookup, the question to the inner resolver and the write back are
three separate steps of a call, and each pushed event is applied under a lock of its own, so calls
interleave between any two of them.

Every answer carries the moment the inner resolver gave it. No step reads that moment: it is there
to say how old an answer is.

The cache's mutex is poisoned only by a panic inside one of its sections, and none of them has one.
-/

namespace McpRe.Trust

open Lib Lib.Text
open McpRe.Http (VerificationKey)
open McpRe.Replay (lengthPrefixed)

/-- The `(signer, key_id)` pair a key is resolved by. -/
structure Binding where
  signer : Str
  keyId : Str
  deriving DecidableEq, Repr

inductive TrustResolverError where
  | notFound
  | revoked
  | malformedKey
  | unavailable (details : Str)
  deriving DecidableEq, Repr

/-- What `TrustResolver::resolve` returns, and when the inner resolver produced it. -/
structure Resolution where
  result : Except TrustResolverError VerificationKey
  producedAt : Nat
  deriving DecidableEq

/-! ## The bounded cache -/

inductive CachedOutcome where
  | active (key : VerificationKey)
  | revoked
  | notFound
  | malformed

def CachedOutcome.toResult : CachedOutcome → Except TrustResolverError VerificationKey
  | .active key => .ok key
  | .revoked => .error .revoked
  | .notFound => .error .notFound
  | .malformed => .error .malformedKey

structure CacheEntry where
  outcome : CachedOutcome
  expiresAt : I64
  invalidated : Bool
  producedAt : Nat

structure BoundedTrustCache where
  tSecs : I64
  negativeTtlSecs : I64
  cache : Table Str CacheEntry
  writesSincePrune : Nat
  maxEntries : Nat

/-- `PRUNE_EVERY_N_WRITES`. -/
def pruneEveryNWrites : Nat := 64

/-- `MAX_CACHE_ENTRIES`. -/
def maxCacheEntries : Nat := 100000

def composeKey (binding : Binding) : Str :=
  lengthPrefixed binding.signer ++ '|' :: lengthPrefixed binding.keyId

namespace BoundedTrustCache

def new (tSecs negativeTtlSecs : I64) : BoundedTrustCache where
  tSecs := max tSecs 0
  negativeTtlSecs := max negativeTtlSecs 0
  cache := ∅
  writesSincePrune := 0
  maxEntries := maxCacheEntries

def withMaxEntries (self : BoundedTrustCache) (maxEntries : Nat) : BoundedTrustCache :=
  { self with maxEntries }

def cached (self : BoundedTrustCache) (key : Str) (now : I64) : Option Resolution :=
  match self.cache.lookup key with
  | none => none
  | some entry =>
    if entry.invalidated then none
    else if now < entry.expiresAt then some ⟨entry.outcome.toResult, entry.producedAt⟩
    else none

/-- The entries whose window is still open. -/
def sweep (now : I64) (cache : Table Str CacheEntry) : Table Str CacheEntry :=
  cache.retain fun _ entry => decide (now < entry.expiresAt)

def prune (self : BoundedTrustCache) (now : I64) : BoundedTrustCache :=
  { self with cache := sweep now self.cache }

/-- The sweep `store` makes before it writes, on every `pruneEveryNWrites`-th write. The counter
saturates at `u64::MAX` in the code; it is reset long before. -/
def sweptForWrite (self : BoundedTrustCache) (now : I64) : BoundedTrustCache :=
  if pruneEveryNWrites ≤ self.writesSincePrune + 1 then
    { self with writesSincePrune := 0, cache := sweep now self.cache }
  else { self with writesSincePrune := self.writesSincePrune + 1 }

/-- The expiry of an invalidated entry, which caps that of its replacement. -/
def ceiling (cache : Table Str CacheEntry) (key : Str) : Option I64 :=
  ((cache.lookup key).filter (·.invalidated)).map (·.expiresAt)

/-- The expiry of a write: the end of its window, or the ceiling if that comes first. -/
def expiry (cache : Table Str CacheEntry) (key : Str) (windowEnd : I64) : I64 :=
  match ceiling cache key with
  | some deadline => min windowEnd deadline
  | none => windowEnd

def store (self : BoundedTrustCache) (key : Str) (outcome : CachedOutcome) (producedAt : Nat)
    (now ttl : I64) : BoundedTrustCache :=
  let self := self.sweptForWrite now
  match I64.ofInt? (now.val + ttl.val) with
  | none => self
  | some windowEnd =>
    let expiresAt := expiry self.cache key windowEnd
    if expiresAt ≤ now then { self with cache := self.cache.erase key }
    else if self.maxEntries ≤ Table.size self.cache && (self.cache.lookup key).isNone then self
    else { self with cache := self.cache.insert key ⟨outcome, expiresAt, false, producedAt⟩ }

/-- `evict`: whether a serving entry was present, and the cache without it. -/
def evict (self : BoundedTrustCache) (binding : Binding) (now : I64) : Bool × BoundedTrustCache :=
  let key := composeKey binding
  match self.cache.lookup key with
  | none => (false, self)
  | some entry =>
    if entry.expiresAt ≤ now then (false, { self with cache := self.cache.erase key })
    else if entry.invalidated then (false, self)
    else (true, { self with cache := self.cache.insert key { entry with invalidated := true } })

/-- `clear`: how many serving entries there were, and the cache with none. -/
def clear (self : BoundedTrustCache) (now : I64) : Nat × BoundedTrustCache :=
  let kept := sweep now self.cache
  (Table.total (fun _ entry => if entry.invalidated then 0 else 1) kept,
    { self with cache := kept.mapValues fun entry => { entry with invalidated := true } })

/-- The third step of `resolve`: an answer is stored by its class, an operational failure is not. -/
def remember (self : BoundedTrustCache) (binding : Binding) (resolution : Resolution) (now : I64) :
    BoundedTrustCache :=
  let key := composeKey binding
  match resolution.result with
  | .ok verificationKey =>
    self.store key (.active verificationKey) resolution.producedAt now self.tSecs
  | .error .revoked => self.store key .revoked resolution.producedAt now self.tSecs
  | .error .notFound => self.store key .notFound resolution.producedAt now self.negativeTtlSecs
  | .error .malformedKey => self.store key .malformed resolution.producedAt now self.negativeTtlSecs
  | .error (.unavailable _) => self

end BoundedTrustCache

/-! ## Pushed events -/

inductive InvalidationEvent where
  | evict (binding : Binding)
  | flushAll
  deriving DecidableEq, Repr

/-- One turn of the loop of `apply_pending_invalidations`. -/
def BoundedTrustCache.applyEvent (self : BoundedTrustCache) (now : I64) :
    InvalidationEvent → BoundedTrustCache
  | .evict binding => (self.evict binding now).2
  | .flushAll => (self.clear now).2

/-! ## Calls that interleave -/

/-- How far a call of `PushInvalidationTrustCache::resolve` has come. -/
inductive Call where
  | idle
  /-- Entered, the channel not yet drained. -/
  | entered (binding : Binding) (startedAt : Nat)
  /-- Drained, with these events left to apply; with none left it turns to the cache. -/
  | applying (binding : Binding) (startedAt : Nat) (events : List InvalidationEvent)
  /-- Missed the cache at `now`, the inner resolver not yet asked. -/
  | missed (binding : Binding) (startedAt : Nat) (now : I64)
  /-- Holds the inner resolver's answer, not yet written back. -/
  | resolved (binding : Binding) (startedAt : Nat) (now : I64) (resolution : Resolution)

/-- The cache, the calls on it, and the moment: how many steps there have been. -/
structure Plane where
  cache : BoundedTrustCache
  calls : Nat → Call
  moment : Nat

/-- What happens next. A call is named by its thread, and brings what it reads from outside: the
clock, the channel, the inner resolver. -/
inductive Action where
  | enter (thread : Nat) (binding : Binding)
  | drain (thread : Nat) (events : List InvalidationEvent)
  | apply (thread : Nat) (now : I64)
  | look (thread : Nat) (now : I64)
  | resolve (thread : Nat) (result : Except TrustResolverError VerificationKey)
  | write (thread : Nat)

/-- What a call returned, and when it began. -/
structure Returned where
  binding : Binding
  startedAt : Nat
  resolution : Resolution
  deriving DecidableEq

namespace Plane

/-- The plane before any call. -/
def new (tSecs negativeTtlSecs : I64) : Plane where
  cache := BoundedTrustCache.new tSecs negativeTtlSecs
  calls := fun _ => .idle
  moment := 0

/-- A call moves on and the moment passes. -/
def moved (plane : Plane) (thread : Nat) (call : Call) : Plane :=
  { plane with calls := Function.update plane.calls thread call, moment := plane.moment + 1 }

/-- Nothing happens: the thread's call is not at this step. -/
def passed (plane : Plane) : Plane := { plane with moment := plane.moment + 1 }

/-- One step, with what the call it ends returns. -/
def step (plane : Plane) : Action → Option Returned × Plane
  | .enter thread binding =>
    match plane.calls thread with
    | .idle => (none, plane.moved thread (.entered binding plane.moment))
    | _ => (none, plane.passed)
  | .drain thread events =>
    match plane.calls thread with
    | .entered binding startedAt =>
      (none, plane.moved thread (.applying binding startedAt events))
    | _ => (none, plane.passed)
  | .apply thread now =>
    match plane.calls thread with
    | .applying binding startedAt (event :: events) =>
      (none, { plane.moved thread (.applying binding startedAt events) with
        cache := plane.cache.applyEvent now event })
    | _ => (none, plane.passed)
  | .look thread now =>
    match plane.calls thread with
    | .applying binding startedAt [] =>
      match plane.cache.cached (composeKey binding) now with
      | some resolution => (some ⟨binding, startedAt, resolution⟩, plane.moved thread .idle)
      | none => (none, plane.moved thread (.missed binding startedAt now))
    | _ => (none, plane.passed)
  | .resolve thread result =>
    match plane.calls thread with
    | .missed binding startedAt now =>
      (none, plane.moved thread (.resolved binding startedAt now ⟨result, plane.moment⟩))
    | _ => (none, plane.passed)
  | .write thread =>
    match plane.calls thread with
    | .resolved binding startedAt now resolution =>
      (some ⟨binding, startedAt, resolution⟩,
        { plane.moved thread .idle with cache := plane.cache.remember binding resolution now })
    | _ => (none, plane.passed)

end Plane

end McpRe.Trust
