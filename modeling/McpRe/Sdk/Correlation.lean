import McpRe.Lib.Dict
import McpRe.Lib.Double
import McpRe.Lib.Text

/-!
# The correlation stores of the client libraries

A client keeps each request it has sent until a response answers it (`correlation.py`,
`correlation.ts`). A request that is answered, expired or given up is consumed: its id is remembered
for a while, so that a second response is told from an unrelated one. The two libraries are written
one after the other, each in the steps of its own source.

Python's integers are exact, and `!r` is a parameter. A TypeScript number is an integer here, its
sums round (`Double.add`), and how it prints is a parameter.
-/

namespace McpRe.Sdk

open Lib Lib.Text

structure SignedRequest where
  evidenceDigestAlg : Str
  evidenceDigestValue : Str
  deriving DecidableEq

structure PendingRequest where
  correlationId : Str
  requestId : Str
  nonce : Str
  evidenceDigestAlg : Str
  evidenceDigestValue : Str
  audienceId : Str
  expectedSignerId : Str
  created : Int
  expires : Int
  route : Option Str
  authzBindingDigest : Option Str
  deriving DecidableEq

def PendingRequest.isExpired (p : PendingRequest) (now : Int) : Bool := decide (p.expires < now)

/-- What `record` takes beside the signed request. -/
structure RecordArgs where
  requestId : Str
  nonce : Str
  audienceId : Str
  expectedSignerId : Str
  created : Int
  expires : Int
  route : Option Str
  authzBindingDigest : Option Str
  deriving DecidableEq

/-- The entry `record` makes. -/
def PendingRequest.of (signed : SignedRequest) (a : RecordArgs) : PendingRequest where
  correlationId := signed.evidenceDigestValue
  requestId := a.requestId
  nonce := a.nonce
  evidenceDigestAlg := signed.evidenceDigestAlg
  evidenceDigestValue := signed.evidenceDigestValue
  audienceId := a.audienceId
  expectedSignerId := a.expectedSignerId
  created := a.created
  expires := a.expires
  route := a.route
  authzBindingDigest := a.authzBindingDigest

structure ContinuationHandles where
  prevAlg : Str
  prevValue : Str
  irrAlg : Str
  irrValue : Str
  requestState : Str
  deriving DecidableEq

structure McpReError where
  code : String
  message : Str
  deriving DecidableEq

structure CorrelationStore where
  pending : Dict Str PendingRequest
  consumed : Dict Str Int

def CorrelationStore.new : CorrelationStore := ⟨.empty, .empty⟩

def consumedScanAt : Nat := 1024

def consumedGrace : Int := 300

/-- A call of either library. -/
inductive Call where
  | record (signed : SignedRequest) (args : RecordArgs)
  | take (correlationId : Str) (now : Int)
  | recordInputRequired (correlationId responseDigestAlg responseDigestValue requestState : Str)
      (now : Int)
  | abandon (correlationId : Str)
  | expireBefore (now : Int)
  | pruneConsumed (now : Int)
  deriving DecidableEq

/-- What a call returns. -/
inductive Value where
  | id (correlationId : Str)
  | request (pending : PendingRequest)
  | handles (handles : ContinuationHandles)
  | none
  | requests (dead : List PendingRequest)
  | count (dropped : Nat)
  deriving DecidableEq

/-! ## Python -/

namespace Python

def pruneConsumed (self : CorrelationStore) (now : Int) : Nat × CorrelationStore :=
  let dead := (self.consumed.filter fun _ retainUntil => decide (retainUntil < now)).keys
  (dead.length, { self with consumed := dead.foldl Dict.erase self.consumed })

def retire (self : CorrelationStore) (pending : PendingRequest) : CorrelationStore where
  pending := self.pending.erase pending.correlationId
  consumed := self.consumed.set pending.correlationId (pending.expires + consumedGrace)

variable (repr : Str → Str)

def record (self : CorrelationStore) (signed : SignedRequest) (a : RecordArgs) :
    Except McpReError Str × CorrelationStore :=
  let correlationId := signed.evidenceDigestValue
  let self :=
    if consumedScanAt ≤ self.consumed.size then (pruneConsumed self a.created).2 else self
  if self.pending.contains correlationId then
    (.error ⟨"mcp-re.replay_detected",
      "request ".toList ++ repr correlationId ++ " is already outstanding".toList⟩, self)
  else
    (.ok correlationId,
      { self with pending := self.pending.set correlationId (.of signed a) })

def take (self : CorrelationStore) (correlationId : Str) (now : Int) :
    Except McpReError PendingRequest × CorrelationStore :=
  match self.pending.get? correlationId with
  | none =>
    if self.consumed.contains correlationId then
      (.error ⟨"mcp-re.replay_detected",
        "request ".toList ++ repr correlationId ++ " was already answered".toList⟩, self)
    else
      (.error ⟨"mcp-re.request_binding_mismatch",
        "response does not bind to any outstanding request (".toList ++ repr correlationId
          ++ ")".toList⟩, self)
  | some pending =>
    if pending.isExpired now then
      (.error ⟨"mcp-re.expired_request",
        "response arrived at ".toList ++ (toString now).toList
          ++ " for a request that expired at ".toList ++ (toString pending.expires).toList⟩,
        retire self pending)
    else (.ok pending, retire self pending)

def abandon (self : CorrelationStore) (correlationId : Str) : CorrelationStore :=
  match self.pending.get? correlationId with
  | none => self
  | some pending =>
    { pending := self.pending.erase correlationId
      consumed := self.consumed.set correlationId (pending.expires + consumedGrace) }

def recordInputRequired (self : CorrelationStore)
    (correlationId responseDigestAlg responseDigestValue requestState : Str) (now : Int) :
    Except McpReError ContinuationHandles × CorrelationStore :=
  match self.pending.get? correlationId with
  | none =>
    if self.consumed.contains correlationId then
      (.error ⟨"mcp-re.replay_detected",
        "request ".toList ++ repr correlationId ++ " was already answered".toList⟩, self)
    else
      (.error ⟨"mcp-re.request_binding_mismatch",
        "input-required response does not bind to any outstanding request (".toList
          ++ repr correlationId ++ ")".toList⟩, self)
  | some pending =>
    if pending.isExpired now then
      (.error ⟨"mcp-re.expired_request",
        "input-required response arrived at ".toList ++ (toString now).toList
          ++ " for a request that expired at ".toList ++ (toString pending.expires).toList⟩,
        retire self pending)
    else
      (.ok ⟨pending.evidenceDigestAlg, pending.evidenceDigestValue, responseDigestAlg,
        responseDigestValue, requestState⟩, self)

def expireBefore (self : CorrelationStore) (now : Int) : List PendingRequest × CorrelationStore :=
  let dead := self.pending.values.filter fun p => p.isExpired now
  let self := dead.foldl retire self
  (dead, (pruneConsumed self now).2)

def step (self : CorrelationStore) : Call → Except McpReError Value × CorrelationStore
  | .record signed args =>
    let (result, self) := record repr self signed args
    (result.map .id, self)
  | .take correlationId now =>
    let (result, self) := take repr self correlationId now
    (result.map .request, self)
  | .recordInputRequired correlationId alg value state now =>
    let (result, self) := recordInputRequired repr self correlationId alg value state now
    (result.map .handles, self)
  | .abandon correlationId => (.ok .none, abandon self correlationId)
  | .expireBefore now =>
    let (dead, self) := expireBefore self now
    (.ok (.requests dead), self)
  | .pruneConsumed now =>
    let (dropped, self) := pruneConsumed self now
    (.ok (.count dropped), self)

end Python

/-! ## TypeScript -/

namespace TypeScript

/-- The loop deletes from the map it iterates over. -/
def pruneConsumed (self : CorrelationStore) (now : Int) : Nat × CorrelationStore :=
  let (dropped, consumed) := self.consumed.entries.foldl
    (fun (acc : Nat × Dict Str Int) e =>
      if e.2 < now then (acc.1 + 1, acc.2.erase e.1) else acc)
    (0, self.consumed)
  (dropped, { self with consumed })

def retire (self : CorrelationStore) (correlationId : Str) : CorrelationStore :=
  match self.pending.get? correlationId with
  | none => self
  | some pending =>
    { pending := self.pending.erase correlationId
      consumed := self.consumed.set correlationId (Double.add pending.expires consumedGrace) }

variable (numberText : Int → Str)

def quoted (s : Str) : Str := '\'' :: s ++ ['\'']

def missOrPending (self : CorrelationStore) (correlationId what : Str) :
    Except McpReError PendingRequest :=
  match self.pending.get? correlationId with
  | some pending => .ok pending
  | none =>
    if self.consumed.contains correlationId then
      .error ⟨"mcp-re.replay_detected",
        "request ".toList ++ quoted correlationId ++ " was already answered".toList⟩
    else
      .error ⟨"mcp-re.request_binding_mismatch",
        what ++ " does not bind to any outstanding request (".toList ++ quoted correlationId
          ++ ")".toList⟩

def record (self : CorrelationStore) (signed : SignedRequest) (a : RecordArgs) :
    Except McpReError Str × CorrelationStore :=
  let correlationId := signed.evidenceDigestValue
  let self :=
    if consumedScanAt ≤ self.consumed.size then (pruneConsumed self a.created).2 else self
  if self.pending.contains correlationId then
    (.error ⟨"mcp-re.replay_detected",
      "request ".toList ++ quoted correlationId ++ " is already outstanding".toList⟩, self)
  else
    (.ok correlationId,
      { self with pending := self.pending.set correlationId (.of signed a) })

def take (self : CorrelationStore) (correlationId : Str) (now : Int) :
    Except McpReError PendingRequest × CorrelationStore :=
  match missOrPending self correlationId "response".toList with
  | .error e => (.error e, self)
  | .ok pending =>
    if pending.isExpired now then
      (.error ⟨"mcp-re.expired_request",
        "response arrived at ".toList ++ numberText now
          ++ " for a request that expired at ".toList ++ numberText pending.expires⟩,
        retire self correlationId)
    else (.ok pending, retire self correlationId)

def recordInputRequired (self : CorrelationStore)
    (correlationId responseDigestAlg responseDigestValue requestState : Str) (now : Int) :
    Except McpReError ContinuationHandles × CorrelationStore :=
  match missOrPending self correlationId "input-required response".toList with
  | .error e => (.error e, self)
  | .ok pending =>
    if pending.isExpired now then
      (.error ⟨"mcp-re.expired_request",
        "input-required response arrived at ".toList ++ numberText now
          ++ " for a request that expired at ".toList ++ numberText pending.expires⟩,
        retire self correlationId)
    else
      (.ok ⟨pending.evidenceDigestAlg, pending.evidenceDigestValue, responseDigestAlg,
        responseDigestValue, requestState⟩, self)

def expireBefore (self : CorrelationStore) (now : Int) : List PendingRequest × CorrelationStore :=
  let dead := self.pending.values.filter fun p => p.isExpired now
  let self := dead.foldl (fun self p => retire self p.correlationId) self
  (dead, (pruneConsumed self now).2)

def abandon (self : CorrelationStore) (correlationId : Str) : CorrelationStore :=
  retire self correlationId

def step (self : CorrelationStore) : Call → Except McpReError Value × CorrelationStore
  | .record signed args =>
    let (result, self) := record self signed args
    (result.map .id, self)
  | .take correlationId now =>
    let (result, self) := take numberText self correlationId now
    (result.map .request, self)
  | .recordInputRequired correlationId alg value state now =>
    let (result, self) := recordInputRequired numberText self correlationId alg value state now
    (result.map .handles, self)
  | .abandon correlationId => (.ok .none, abandon self correlationId)
  | .expireBefore now =>
    let (dead, self) := expireBefore self now
    (.ok (.requests dead), self)
  | .pruneConsumed now =>
    let (dropped, self) := pruneConsumed self now
    (.ok (.count dropped), self)

end TypeScript

end McpRe.Sdk
