import McpRe.Replay.Tier

/-!
# The shared replay store

Replicas that keep their nonces in one store (`shared_replay.rs`): the in-memory reference store with
its inline sweep, the cache each replica puts in front of it, and a fleet of such caches behind their
freshness windows.
-/

namespace McpRe.Replay

open Lib Lib.Counter Lib.Text
open McpRe.Http (Platform windowAdmits)

/-- Is nothing left of the retention? -/
def isStalePreStore (retainUntilUnix nowUnix : I64) : Bool :=
  decide (retainUntilUnix.saturatingSub nowUnix ≤ 0)

/-! ## The store -/

/-- `InMemoryAtomicReplayStore`: `seen` maps a composite key to its retain-until. -/
structure InMemoryAtomicReplayStore where
  seen : Table Str I64
  insertsSincePrune : Nat
  maxEntries : Nat

namespace InMemoryAtomicReplayStore

/-- `MAX_ATOMIC_STORE_ENTRIES`. -/
def maxAtomicStoreEntries : Nat := 1000000

def pruneEveryNInserts : Nat := 64

def new : InMemoryAtomicReplayStore where
  seen := ∅
  insertsSincePrune := 0
  maxEntries := maxAtomicStoreEntries

/-- `with_max_entries`. -/
def withMaxEntries (store : InMemoryAtomicReplayStore) (maxEntries : Nat) :
    InMemoryAtomicReplayStore :=
  { store with maxEntries := maxEntries }

def prune (store : InMemoryAtomicReplayStore) (nowUnix : I64) : InMemoryAtomicReplayStore :=
  { store with seen := Table.retain (fun _ retainUntil => decide (nowUnix ≤ retainUntil)) store.seen }

def len (store : InMemoryAtomicReplayStore) : Nat := Table.size store.seen

/-- The details of a refusal of what is already stale. -/
def staleDetails (expiresAtUnix nowUnix : I64) : Str :=
  "replay request already stale: retain_until (".toList ++ expiresAtUnix.display
    ++ ") is at or before now (".toList ++ nowUnix.display
    ++ ") — rejected pre-store (MCPS-08, fail closed) rather than recorded as Fresh".toList

/-- The details of a refusal at the ceiling. -/
def capacityDetails (maxEntries : Nat) : Str :=
  "in-memory shared replay store at capacity (".toList ++ Nat.toDigits 10 maxEntries
    ++ " entries); refusing further nonces until expired entries are pruned".toList

/-- Does the next absent key bring the sweep? -/
def sweepDue (store : InMemoryAtomicReplayStore) : Bool :=
  decide (pruneEveryNInserts ≤ min (store.insertsSincePrune + 1) usizeMax)

/-- The inline eviction, at the store's own reading of the clock. -/
def sweep (store : InMemoryAtomicReplayStore) (clock : I64) : InMemoryAtomicReplayStore :=
  if store.sweepDue then
    { store with
      insertsSincePrune := 0
      seen := Table.retain (fun _ retainUntil => decide (clock ≤ retainUntil)) store.seen }
  else { store with insertsSincePrune := min (store.insertsSincePrune + 1) usizeMax }

/-- `insert_if_absent`. The caller's `nowUnix` only decides staleness; `clock` is what the store
reads itself. -/
def insertIfAbsent (store : InMemoryAtomicReplayStore) (key : Str) (expiresAtUnix nowUnix clock : I64) :
    Except ReplayStoreError ReplayDecision × InMemoryAtomicReplayStore :=
  if isStalePreStore expiresAtUnix nowUnix then
    (.error (.unavailable (staleDetails expiresAtUnix nowUnix)), store)
  else if (store.seen.lookup key).isSome then (.ok .replay, store)
  else
    let store := store.sweep clock
    if store.maxEntries ≤ store.len then
      (.error (.unavailable (capacityDetails store.maxEntries)), store)
    else (.ok .fresh, { store with seen := store.seen.insert key expiresAtUnix })

end InMemoryAtomicReplayStore

/-! ## The cache of one replica -/

/-- `SharedReplayCache`, apart from the store it shares. -/
structure SharedReplayCache where
  maxClockSkewSecs : I64

/-- The key and the retain-until that a triple is recorded under. -/
def SharedReplayCache.checkAndInsert (P : Platform) (cache : SharedReplayCache)
    (store : InMemoryAtomicReplayStore) (key : Slots) (expiresAtUnix clock : I64) :
    Except ReplayCacheError ReplayDecision × InMemoryAtomicReplayStore :=
  let composite := compositeReplayKey P key.signer key.audience key.nonce
  let retainUntil := skewFoldedRetainUntil expiresAtUnix cache.maxClockSkewSecs
  let (outcome, store) := store.insertIfAbsent composite retainUntil 0 clock
  (outcome.mapError ReplayStoreError.toCacheError, store)

/-! ## A fleet -/

/-- A message that a node was sent. -/
structure Offer (ι : Type) where
  node : ι
  key : Slots
  created : I64
  expires : I64
  /-- The clock the node's freshness gate read. -/
  reading : I64
  deriving DecidableEq, Repr

inductive FleetEvent (ι : Type) where
  | offer (message : Offer ι) (clock : I64)
  | prune (clock : I64)
  deriving DecidableEq, Repr

/-- The store's clock at an event. -/
def FleetEvent.clock {ι : Type} : FleetEvent ι → I64
  | .offer _ clock => clock
  | .prune clock => clock

/-- One event of a fleet: a message reaches the store only inside the window of its node. -/
def fleetStep {ι : Type} (P : Platform) (nodes : ι → SharedReplayCache)
    (store : InMemoryAtomicReplayStore) : FleetEvent ι → Answer × InMemoryAtomicReplayStore
  | .offer message clock =>
    let cache := nodes message.node
    if windowAdmits message.created message.expires message.reading cache.maxClockSkewSecs then
      let (outcome, store) := cache.checkAndInsert P store message.key message.expires clock
      (.decided outcome, store)
    else (.staleWindow, store)
  | .prune clock => (.pruned, store.prune clock)

end McpRe.Replay
