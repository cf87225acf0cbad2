import McpRe.Http.Floor
import McpRe.Lib.Run
import McpRe.Lib.Split
import McpRe.Lib.Table

/-!
# The in-memory replay cache

The reference cache (`mcp-re-core/src/replay.rs`), the key the HTTP profile records a request under
(`mcp-re-http-profile/src/replay.rs`), and the freshness window in front of them.
-/

namespace McpRe.Replay

open Lib Lib.Text
open McpRe.Http (windowAdmits)

/-! ## Keys -/

/-- The `(signer, audience, nonce)` triple a nonce is recorded under. -/
structure Slots where
  signer : Str
  audience : Str
  nonce : Str
  deriving DecidableEq, Repr

/-- The core `ReplayKey`. -/
structure ReplayKey where
  signer : Str
  principal : Str
  audience : Str
  nonce : Str
  expiresAtUnix : I64
  deriving DecidableEq, Repr

/-- `HttpReplayKey`: the profile's five components. -/
structure HttpReplayKey where
  profileId : Str
  signatureLabel : Str
  actorId : Str
  audienceHash : Str
  nonce : Str
  deriving DecidableEq, Repr

/-- `SEP`, the unit separator. -/
def sep : Char := Char.ofNat 0x1f

namespace HttpReplayKey

def signerSlot (key : HttpReplayKey) : Str :=
  key.profileId ++ sep :: key.signatureLabel ++ sep :: key.actorId

/-- `principal_slot`: the signer slot without the key id. -/
def principalSlot (key : HttpReplayKey) : Str :=
  let subject := match rsplitOnce ':' key.actorId with
    | some (subject, _) => subject
    | none => key.actorId
  key.profileId ++ sep :: key.signatureLabel ++ sep :: subject

def toCoreReplayKey (key : HttpReplayKey) (expiresAtUnix : I64) : ReplayKey where
  signer := key.signerSlot
  principal := key.principalSlot
  audience := key.audienceHash
  nonce := key.nonce
  expiresAtUnix := expiresAtUnix

end HttpReplayKey

/-! ## The cache -/

inductive ReplayDecision where
  | fresh
  | replay
  deriving DecidableEq, Repr

inductive ReplayCacheError where
  | unavailable (details : Str)
  deriving DecidableEq, Repr

def skewFoldedRetainUntil (expiresAtUnix maxClockSkewSecs : I64) : I64 :=
  expiresAtUnix.saturatingAdd maxClockSkewSecs

/-- `InMemoryReplayCache`: `seen` maps a triple to its retain-until. -/
structure InMemoryReplayCache where
  maxClockSkewSecs : I64
  maxEntries : Nat
  seen : Table Slots I64

namespace InMemoryReplayCache

/-- `MAX_ENTRIES`. -/
def defaultMaxEntries : Nat := 1000000

def new (maxClockSkewSecs : I64) : InMemoryReplayCache where
  maxClockSkewSecs := maxClockSkewSecs
  maxEntries := defaultMaxEntries
  seen := ∅

/-- `with_max_entries`: the ceiling is only ever lowered. -/
def withMaxEntries (cache : InMemoryReplayCache) (maxEntries : Nat) : InMemoryReplayCache :=
  { cache with maxEntries := min cache.maxEntries maxEntries }

def len (cache : InMemoryReplayCache) : Nat := Table.size cache.seen

def prune (cache : InMemoryReplayCache) (nowUnix : I64) : InMemoryReplayCache :=
  { cache with seen := Table.retain (fun _ retainUntil => decide (nowUnix ≤ retainUntil)) cache.seen }

/-- The details of a refusal at the ceiling. -/
def ceilingDetails (maxEntries : Nat) : Str :=
  "in-memory replay cache is at its ".toList ++ Nat.toDigits 10 maxEntries
    ++ (" entry ceiling; call prune(now) to evict entries past their retain-until").toList

def checkAndInsert (cache : InMemoryReplayCache) (key : Slots) (expiresAtUnix : I64) :
    Except ReplayCacheError ReplayDecision × InMemoryReplayCache :=
  if (cache.seen.lookup key).isSome then (.ok .replay, cache)
  else if cache.maxEntries ≤ cache.len then
    (.error (.unavailable (ceilingDetails cache.maxEntries)), cache)
  else
    let retainUntil := skewFoldedRetainUntil expiresAtUnix cache.maxClockSkewSecs
    (.ok .fresh, { cache with seen := cache.seen.insert key retainUntil })

end InMemoryReplayCache

def HttpReplayKey.checkAndInsert (key : HttpReplayKey) (cache : InMemoryReplayCache)
    (expiresAtUnix : I64) : Except ReplayCacheError ReplayDecision × InMemoryReplayCache :=
  cache.checkAndInsert ⟨key.signerSlot, key.audienceHash, key.nonce⟩ expiresAtUnix

/-! ## The gated cache -/

/-- What happens to a cache behind the freshness window. -/
inductive Event where
  | offer (key : Slots) (created expires now : I64)
  | prune (now : I64)
  deriving DecidableEq, Repr

/-- The clock reading of an event. -/
def Event.now : Event → I64
  | .offer _ _ _ now => now
  | .prune now => now

inductive Answer where
  | decided (outcome : Except ReplayCacheError ReplayDecision)
  | staleWindow
  | pruned

/-- One event: a message reaches the cache only inside its window, under the cache's own skew. -/
def step (cache : InMemoryReplayCache) : Event → Answer × InMemoryReplayCache
  | .offer key created expires now =>
    if windowAdmits created expires now cache.maxClockSkewSecs then
      let (outcome, cache) := cache.checkAndInsert key expires
      (.decided outcome, cache)
    else (.staleWindow, cache)
  | .prune now => (.pruned, cache.prune now)

end McpRe.Replay
