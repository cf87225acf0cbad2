import McpRe.Replay.Ledger

/-!
# The async replay tier

`AsyncReplayTier::check_and_insert` (`async_replay/mod.rs`) with the charge guard it holds across its
one await (`async_replay/charge.rs`), over a store that is shared with other replicas. Calls
interleave freely: the store may act on an insert before, after or without the caller seeing its
answer, and a caller may go away while it waits.
-/

namespace McpRe.Replay

open Lib Lib.Counter Lib.Text
open McpRe.Http (Platform maxClockSkewBound b64urlEncode)

/-! ## Keys and horizons -/

def sha256HashId (P : Platform) (bytes : Bytes) : Str :=
  "sha256:".toList ++ b64urlEncode (P.sha256 bytes).bytes

/-- A field with its length in bytes in front. -/
def lengthPrefixed (field : Str) : Str :=
  Nat.toDigits 10 (utf8 field).length ++ ':' :: field

def compositeReplayKey (P : Platform) (signer audience nonce : Str) : Str :=
  sha256HashId P (utf8 (lengthPrefixed signer ++ '|' :: lengthPrefixed audience
    ++ '|' :: lengthPrefixed nonce))

/-- `FreshnessWindow`: a skew within the verifier's bound. -/
structure FreshnessWindow where
  maxClockSkewSecs : I64
  nonneg : 0 ≤ maxClockSkewSecs.val
  le_bound : maxClockSkewSecs.val ≤ maxClockSkewBound

def FreshnessWindow.replayRetainUntil (window : FreshnessWindow) (expiresAtUnix : I64) : I64 :=
  expiresAtUnix.saturatingAdd window.maxClockSkewSecs

/-! ## The charge guard -/

inductive Settlement where
  | indeterminate
  | retained
  | provenAbsent
  deriving DecidableEq, Repr

/-- `Charge`: one reservation. -/
structure Charge where
  actor : Str
  retainUntil : I64
  settlement : Settlement
  deriving DecidableEq, Repr

namespace Charge

section

variable {m : Type → Type} [Monad m] (A : Arith m)

/-- `Drop for Charge`: an unsettled charge is kept. -/
def drop (charge : Charge) (s : LedgerState) : m LedgerState :=
  match charge.settlement with
  | .retained => pure s
  | .provenAbsent => pure s
  | .indeterminate => s.commit A charge.actor charge.retainUntil

/-- `Charge::commit`, and the drop that ends it. -/
def commit (charge : Charge) (s : LedgerState) : m (Charge × LedgerState) := do
  let s ← s.commit A charge.actor charge.retainUntil
  let charge := { charge with settlement := .retained }
  let s ← charge.drop A s
  pure (charge, s)

/-- `Charge::release_proven_absent`, and the drop that ends it. -/
def releaseProvenAbsent (charge : Charge) (s : LedgerState) : m (Charge × LedgerState) := do
  let s ← s.release A charge.actor
  let charge := { charge with settlement := .provenAbsent }
  let s ← charge.drop A s
  pure (charge, s)

/-- The end of `check_and_insert`: settle from what the store answered. -/
def settle (charge : Charge) (s : LedgerState) :
    Except ReplayStoreError ReplayDecision → m (Charge × LedgerState)
  | .ok .fresh => charge.commit A s
  | .ok .replay => charge.releaseProvenAbsent A s
  | .error _ => do
    let s ← charge.drop A s
    pure (charge, s)

end

end Charge

/-! ## Calls in flight -/

/-- One call of `check_and_insert` whose reservation was granted. -/
structure Call where
  /-- The key its insert is for. -/
  composite : Str
  charge : Charge
  /-- What the store decided, once the insert reached it. -/
  landed : Option ReplayDecision
  /-- Is the caller still waiting? -/
  inFlight : Bool
  /-- What the caller was told; nothing if it went away. -/
  answered : Option (Except ReplayCacheError ReplayDecision)
  /-- Has a prune past its horizon run since the charge was settled? -/
  expired : Bool
  deriving DecidableEq

/-- Does the call's charge still stand? -/
def Call.charged (call : Call) : Bool :=
  call.inFlight || (call.charge.settlement != .provenAbsent && !call.expired)

/-- The prune of a settled charge. -/
def Call.expireAt (now : I64) (call : Call) : Call :=
  if !call.inFlight && !decide (now ≤ call.charge.retainUntil) then { call with expired := true }
  else call

/-- The tier of one replica and the store behind it. -/
structure Tier where
  ledger : LedgerState
  calls : List Call
  store : List Str
  /-- The instants pruned at, the most recent first. -/
  prunes : List I64

def Tier.empty : Tier := ⟨.empty, [], [], []⟩

inductive TierEvent where
  /-- A caller starts, up to its await. -/
  | call (key : ReplayKey) (now : I64)
  /-- The store acts on the insert of a call, whether or not its caller still waits. -/
  | land (id : Nat)
  /-- The caller gets the store's decision. -/
  | answer (id : Nat)
  /-- The caller gets an error, the insert having landed or not. -/
  | fail (id : Nat) (error : ReplayStoreError)
  /-- The caller's future is dropped at its await. -/
  | cancel (id : Nat)
  /-- The store's own expiry. -/
  | evict (composite : Str)
  /-- Another replica's insert. -/
  | foreign (composite : Str)

inductive TierAnswer where
  | pending (id : Nat)
  | returned (outcome : Except ReplayCacheError ReplayDecision)
  | silent

/-- `From<ReplayStoreError> for ReplayCacheError`. -/
def ReplayStoreError.toCacheError : ReplayStoreError → ReplayCacheError
  | .unavailable details => .unavailable details

/-- The insert-if-absent of the store: `Fresh` iff the key was absent and is now recorded. -/
def insertIfAbsent (store : List Str) (composite : Str) : ReplayDecision × List Str :=
  if composite ∈ store then (.replay, store) else (.fresh, composite :: store)

namespace Tier

section

variable (P : Platform) (L : RetentionLedger) (window : FreshnessWindow)

/-- Note the prune that the cadence of a reservation runs, if it runs one. -/
def notePrune (w : Tier) (now : I64) : Tier :=
  if asyncPruneEveryNInserts ≤ w.ledger.insertsSincePrune + 1 then
    { w with calls := w.calls.map (Call.expireAt now), prunes := now :: w.prunes }
  else w

/-- The head of `check_and_insert`, up to its await. -/
def start (w : Tier) (key : ReplayKey) (now : I64) : TierAnswer × Tier :=
  let composite := compositeReplayKey P key.signer key.audience key.nonce
  let retainUntil := window.replayRetainUntil key.expiresAtUnix
  let (outcome, ledger) := Id.run (w.ledger.reserve saturating L key.principal now)
  let w := { w.notePrune now with ledger := ledger }
  match outcome with
  | .error e => (.returned (.error e.toCacheError), w)
  | .ok actor =>
    (.pending w.calls.length, { w with calls := w.calls ++
      [⟨composite, ⟨actor, retainUntil, .indeterminate⟩, none, true, none, false⟩] })

/-- The tail of `check_and_insert`, from what its await returned. -/
def finish (w : Tier) (id : Nat) (call : Call)
    (outcome : Except ReplayStoreError ReplayDecision) : TierAnswer × Tier :=
  let (charge, ledger) := Id.run (call.charge.settle saturating w.ledger outcome)
  let result := outcome.mapError ReplayStoreError.toCacheError
  (.returned result, { w with
    ledger := ledger
    calls := w.calls.set id
      { call with charge := charge, inFlight := false, answered := some result } })

/-- One event. -/
def step (w : Tier) : TierEvent → TierAnswer × Tier
  | .call key now => w.start P L window key now
  | .land id =>
    match w.calls[id]? with
    | none => (.silent, w)
    | some call =>
      if call.landed.isSome then (.silent, w)
      else
        let (decision, store) := insertIfAbsent w.store call.composite
        (.silent, { w with
          store := store, calls := w.calls.set id { call with landed := some decision } })
  | .answer id =>
    match w.calls[id]? with
    | none => (.silent, w)
    | some call =>
      match call.inFlight, call.landed with
      | true, some decision => w.finish id call (.ok decision)
      | _, _ => (.silent, w)
  | .fail id error =>
    match w.calls[id]? with
    | none => (.silent, w)
    | some call => if call.inFlight then w.finish id call (.error error) else (.silent, w)
  | .cancel id =>
    match w.calls[id]? with
    | none => (.silent, w)
    | some call =>
      if call.inFlight then
        let ledger := Id.run (call.charge.drop saturating w.ledger)
        (.silent, { w with
          ledger := ledger, calls := w.calls.set id { call with inFlight := false } })
      else (.silent, w)
  | .evict composite => (.silent, { w with store := w.store.filter (· != composite) })
  | .foreign composite => (.silent, { w with store := (insertIfAbsent w.store composite).2 })

end

end Tier

end McpRe.Replay
