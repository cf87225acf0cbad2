import McpRe.Http.Artifact
import McpRe.Http.Response

/-!
# Chain reconstruction

`reconstruct_chain` (`chain/`): a multi-round exchange is retained as a list of hops, and an auditor
decides offline whether the list is the whole exchange. Each hop is verified at its own instants, a
hop after the first names the evidence of the one before it, and only the last hop's response is
terminal.
-/

namespace McpRe.Http

open Lib Lib.Result Lib.Text

structure RetainedHop where
  request : HttpRequest
  response : HttpResponse
  deriving DecidableEq

inductive IncompleteReason where
  | requestUnverifiable (e : HttpProfileError)
  | responseUnverifiable (e : HttpProfileError)
  | missingContinuation
  | continuationDoesNotLink
  | nonTerminalExpected
  | terminalExpected
  | unrecognizedResultType
  | emptyChain
  | hopAfterAuditInstant
  deriving DecidableEq, Repr

inductive ChainLabel where
  | complete
  | incomplete (hop : Nat) (reason : IncompleteReason)
  deriving DecidableEq, Repr

structure HopEvidence where
  requestEvidence : RequestEvidence
  responseEvidence : RequestEvidence
  deriving DecidableEq, Repr

/-! ## The submission's identity -/

def submittedCommitmentDomain : String := "mcp-re-evidence/v3:submitted-chain"

/-- `u64::to_be_bytes`. -/
def beBytes64 (n : Nat) : Bytes :=
  (List.range 8).map fun i => UInt8.ofNat (n / 256 ^ (7 - i))

def lengthPrefixed (part : Bytes) : Bytes := beBytes64 part.length ++ part

def headersBytes (headers : Headers) : Bytes :=
  beBytes64 headers.length
    ++ headers.flatMap fun kv => lengthPrefixed (utf8 kv.1) ++ lengthPrefixed (utf8 kv.2)

def RetainedHop.bytes (hop : RetainedHop) : Bytes :=
  beBytes64 hop.response.status.toNat
    ++ [utf8 hop.request.method, utf8 hop.request.targetUri, hop.request.body,
      hop.response.body].flatMap lengthPrefixed
    ++ [hop.request.headers, hop.response.headers].flatMap headersBytes

/-- What `submitted_commitment` feeds the hash. -/
def submittedPreimage (hops : List RetainedHop) : Bytes :=
  lengthPrefixed (utf8 submittedCommitmentDomain.toList) ++ beBytes64 hops.length
    ++ hops.flatMap RetainedHop.bytes

def submittedCommitment (P : Platform) (hops : List RetainedHop) : Str :=
  sha256B64url P (submittedPreimage hops)

/-! ## A hop's instants -/

inductive HopInstantError where
  | unreadable (e : HttpProfileError)
  | afterAuditInstant
  deriving DecidableEq, Repr

def hopInstant (headers : Headers) (label : Str) (what : String) (policy : VerifierPolicy)
    (now : I64) : Except HopInstantError I64 := do
  let parsed ← (parseSignatureInputFor headers label what).mapError .unreadable
  let created ← okOr parsed.params.created (.unreadable .staleWindow)
  ensure (!decide (now < created.saturatingSub policy.maxClockSkew)) .afterAuditInstant
  .ok created

/-- The reason a hop is incomplete for, with the half of it that could not be read. -/
def HopInstantError.reason (unverifiable : HttpProfileError → IncompleteReason) :
    HopInstantError → IncompleteReason
  | unreadable e => unverifiable e
  | afterAuditInstant => .hopAfterAuditInstant

/-! ## Linkage and shape (`record.rs`) -/

structure HopPosition where
  index : Nat
  previous : Option HopEvidence
  isLast : Bool

def linkToPredecessor (position : HopPosition) (continuation : Option HttpContinuation) :
    Except IncompleteReason Unit :=
  match position.index, continuation, position.previous with
  | 0, none, _ => .ok ()
  | 0, some _, _ => .error .continuationDoesNotLink
  | _, none, _ => .error .missingContinuation
  | _, some _, none => .error .continuationDoesNotLink
  | _, some c, some prev =>
    ensure (c.previousRequestEvidence.digestValue == prev.requestEvidence.digestValue
      && c.previousRequestEvidence.digestAlg == prev.requestEvidence.digestAlg
      && c.inputRequiredResponseEvidence.digestValue == prev.responseEvidence.digestValue
      && c.inputRequiredResponseEvidence.digestAlg == prev.responseEvidence.digestAlg)
      .continuationDoesNotLink

inductive ResultTypeClass where
  | complete
  | inputRequired
  | unrecognized
  deriving DecidableEq, Repr

def inputRequiredResultType : String := "input_required"

def completeResultType : String := "complete"

def classifyResultType (result : Option Json) : ResultTypeClass :=
  match result.bind (Json.get "resultType") with
  | none => .complete
  | some (.string t) =>
    if t = inputRequiredResultType.toList then .inputRequired
    else if t = completeResultType.toList then .complete
    else .unrecognized
  | some _ => .unrecognized

inductive HopOutcome where
  | inputRequired
  | terminal
  | unrecognized
  deriving DecidableEq, Repr

def classifyVerifiedResponse (P : Platform) (body : Bytes) : HopOutcome :=
  match classifyResultType ((P.fromSlice body).bind (Json.get "result")) with
  | .inputRequired => .inputRequired
  | .complete => .terminal
  | .unrecognized => .unrecognized

def checkChainShape (P : Platform) (isLast : Bool) (responseBody : Bytes) :
    Except IncompleteReason Unit :=
  match isLast, classifyVerifiedResponse P responseBody with
  | _, .unrecognized => .error .unrecognizedResultType
  | false, .terminal => .error .nonTerminalExpected
  | true, .inputRequired => .error .terminalExpected
  | _, _ => .ok ()

/-! ## A hop (`hop.rs`) -/

structure Verifier where
  resolveActor : Resolver
  policy : VerifierPolicy

structure ChainAudit where
  expectedAudience : AudienceTuple
  artifactMaterial : ArtifactBinding → Option Bytes

structure ChainVerification where
  verifier : Verifier
  expect : DelegationExpectations
  audit : ChainAudit
  isRevoked : Str → Bool
  now : I64

namespace ChainVerification

variable (V : ChainVerification) (P : Platform)

def instants (hop : RetainedHop) : Except IncompleteReason (I64 × I64) := do
  let requestAt ← (hopInstant hop.request.headers requestLabel.toList "request signature-input"
    V.verifier.policy V.now).mapError (HopInstantError.reason .requestUnverifiable)
  let responseAt ← (hopInstant hop.response.headers responseLabel.toList "response signature-input"
    V.verifier.policy V.now).mapError (HopInstantError.reason .responseUnverifiable)
  .ok (requestAt, responseAt)

/-- `verify_request`, before its failures are put down to the request. -/
def checkRequest (request : HttpRequest) (at_ : I64) :
    Verdict (RequestEvidence × HttpRequestEvidenceBlock) := do
  let verified ← floorRequest P request V.verifier.resolveActor V.verifier.policy at_
  let block ← extractMetaBlock P HttpRequestEvidenceBlock.read request.body
    requestEvidenceBlockKey "request evidence block"
  block.validate verified.profileId
  enforceFullProfileBindings P request block V.audit.expectedAudience V.audit.artifactMaterial
  .ok (verified.evidence, block)

def verifyRequest (hop : RetainedHop) (at_ : I64) :
    Except IncompleteReason (RequestEvidence × HttpRequestEvidenceBlock) :=
  (V.checkRequest P hop.request at_).mapError .requestUnverifiable

def verifyHop (hop : RetainedHop) (position : HopPosition) : Except IncompleteReason HopEvidence := do
  let (requestAt, responseAt) ← V.instants hop
  let (requestEvidence, block) ← V.verifyRequest P hop requestAt
  let verifiedRsp ← (delegatedBoundResponse P hop.response hop.request V.verifier.resolveActor
    V.verifier.policy V.expect V.isRevoked responseAt).mapError .responseUnverifiable
  linkToPredecessor position block.continuation
  checkChainShape P position.isLast hop.response.body
  .ok ⟨requestEvidence, verifiedRsp.signatureFacts.responseSignatureBaseDigest⟩

end ChainVerification

/-! ## The chain -/

structure ChainReconstruction where
  label : ChainLabel
  hopEvidence : List HopEvidence
  submittedCommitment : Str
  deriving DecidableEq, Repr

/-- The loop of `reconstruct_chain` from hop `i` of `total` on, with the evidence so far. -/
def reconstructFrom (P : Platform) (V : ChainVerification) (total : Nat) :
    Nat → List HopEvidence → List RetainedHop → ChainLabel × List HopEvidence
  | _, evidence, [] => (.complete, evidence)
  | i, evidence, hop :: hops =>
    match V.verifyHop P hop ⟨i, evidence.getLast?, decide (i + 1 = total)⟩ with
    | .ok e => reconstructFrom P V total (i + 1) (evidence ++ [e]) hops
    | .error reason => (.incomplete i reason, evidence)

def reconstructChain (P : Platform) (V : ChainVerification) (hops : List RetainedHop) :
    ChainReconstruction :=
  let submitted := submittedCommitment P hops
  if hops.isEmpty then ⟨.incomplete 0 .emptyChain, [], submitted⟩
  else
    let (label, hopEvidence) := reconstructFrom P V hops.length 0 [] hops
    ⟨label, hopEvidence, submitted⟩

end McpRe.Http
