import McpRe.Http.Chain

/-!
# What a record commits to

`EvidenceCommitment` (`scitt/commitment/`): the digests a signed statement names of evidence that is
retained elsewhere, and the check that retained evidence reproduces them
(`scitt/commitment/correspondence.rs`, `scitt/retained.rs`).
-/

namespace McpRe.Scitt

open Lib Lib.Result Lib.Text
open McpRe.Http

/-! ## The label of a record -/

/-- The variant of an error and its text, as the derived `Debug` names them. -/
def debugParts : HttpProfileError → String × Option String
  | .missingEvidence what => ("MissingEvidence", some what)
  | .malformedEvidence what => ("MalformedEvidence", some what)
  | .duplicateHeader what => ("DuplicateHeader", some what)
  | .contentEncodingPresent => ("ContentEncodingPresent", none)
  | .nonJsonMediaType => ("NonJsonMediaType", none)
  | .contentDigestMismatch => ("ContentDigestMismatch", none)
  | .missingCoveredComponent what => ("MissingCoveredComponent", some what)
  | .unknownProfileTag => ("UnknownProfileTag", none)
  | .unsupportedAlgorithm => ("UnsupportedAlgorithm", none)
  | .invalidSignature => ("InvalidSignature", none)
  | .staleWindow => ("StaleWindow", none)
  | .unresolvedKeyId => ("UnresolvedKeyId", none)
  | .trustResolverUnavailable => ("TrustResolverUnavailable", none)
  | .actorSlotMismatch => ("ActorSlotMismatch", none)
  | .artifactBindingFailed => ("ArtifactBindingFailed", none)
  | .audienceMismatch => ("AudienceMismatch", none)
  | .responseBindingMismatch => ("ResponseBindingMismatch", none)
  | .responseSignatureInvalid => ("ResponseSignatureInvalid", none)
  | .continuationBindingFailed => ("ContinuationBindingFailed", none)
  | .unrecognizedResultType => ("UnrecognizedResultType", none)
  | .upstreamResponseInvalid what => ("UpstreamResponseInvalid", some what)
  | .mcpMethodDivergence => ("McpMethodDivergence", none)
  | .mcpTransportHeaderMissing what => ("McpTransportHeaderMissing", some what)
  | .mcpProtocolVersionUnsupported => ("McpProtocolVersionUnsupported", none)
  | .mcpTransportDivergence what => ("McpTransportDivergence", some what)
  | .admissionAssertionInvalid => ("AdmissionAssertionInvalid", none)
  | .admissionIssuerUntrusted => ("AdmissionIssuerUntrusted", none)
  | .admissionAssertionExpired => ("AdmissionAssertionExpired", none)
  | .admissionBindingMismatch => ("AdmissionBindingMismatch", none)
  | .admissionNotCurrent => ("AdmissionNotCurrent", none)
  | .admissionStateUnavailable => ("AdmissionStateUnavailable", none)
  | .receiptInvalid => ("ReceiptInvalid", none)
  | .receiptInclusionInvalid => ("ReceiptInclusionInvalid", none)
  | .receiptIssuerUntrusted => ("ReceiptIssuerUntrusted", none)
  | .receiptPositionUnbound => ("ReceiptPositionUnbound", none)
  | .receiptPositionMismatch => ("ReceiptPositionMismatch", none)
  | .delegationCredentialMissing => ("DelegationCredentialMissing", none)
  | .delegationCredentialInvalid => ("DelegationCredentialInvalid", none)
  | .delegationCredentialExpired => ("DelegationCredentialExpired", none)
  | .delegationIssuerUntrusted => ("DelegationIssuerUntrusted", none)
  | .delegationProfileMismatch => ("DelegationProfileMismatch", none)
  | .delegationAudienceMismatch => ("DelegationAudienceMismatch", none)
  | .delegationKeyUseInvalid => ("DelegationKeyUseInvalid", none)
  | .delegationTrustEpochStale => ("DelegationTrustEpochStale", none)
  | .delegationKeyMismatch => ("DelegationKeyMismatch", none)
  | .delegationRevoked => ("DelegationRevoked", none)

/-- The derived `Debug` of a text, all of whose characters print as they are but the two that are
escaped. -/
def debugText (what : String) : Str :=
  '"' :: (what.toList.flatMap fun c => if c = '"' ∨ c = '\\' then ['\\', c] else [c]) ++ ['"']

def debugError (e : HttpProfileError) : Str :=
  match debugParts e with
  | (name, none) => name.toList
  | (name, some what) => name.toList ++ '(' :: debugText what ++ [')']

def debugReason : IncompleteReason → Str
  | .requestUnverifiable e => "RequestUnverifiable(".toList ++ debugError e ++ [')']
  | .responseUnverifiable e => "ResponseUnverifiable(".toList ++ debugError e ++ [')']
  | .missingContinuation => "MissingContinuation".toList
  | .continuationDoesNotLink => "ContinuationDoesNotLink".toList
  | .nonTerminalExpected => "NonTerminalExpected".toList
  | .terminalExpected => "TerminalExpected".toList
  | .unrecognizedResultType => "UnrecognizedResultType".toList
  | .emptyChain => "EmptyChain".toList
  | .hopAfterAuditInstant => "HopAfterAuditInstant".toList

def labelToken : ChainLabel → Str
  | .complete => "complete".toList
  | .incomplete hop reason =>
    "incomplete:".toList ++ Nat.toDigits 10 hop ++ ':' :: debugReason reason

/-! ## The commitment -/

structure EvidenceCommitment where
  requestEvidence : Str
  responseEvidence : Str
  bindingsCommitment : Option Str
  verifiedContextCommitment : Option Str
  chainLabel : Str
  chainCommitment : Str
  submittedCommitment : Str
  deriving DecidableEq

/-- What a hop adds to the digest of the chain's shape. -/
def shapeBytes (h : HopEvidence) : Bytes :=
  utf8 h.requestEvidence.digestValue ++ 0 :: (utf8 h.responseEvidence.digestValue ++ [0])

namespace EvidenceCommitment

def fromReconstruction (P : Platform) (reconstruction : ChainReconstruction)
    (bindingsCommitment verifiedContextCommitment : Option Str) : EvidenceCommitment where
  requestEvidence :=
    ((reconstruction.hopEvidence.head?).map (·.requestEvidence.digestValue)).getD []
  responseEvidence :=
    ((reconstruction.hopEvidence.head?).map (·.responseEvidence.digestValue)).getD []
  bindingsCommitment
  verifiedContextCommitment
  chainLabel := labelToken reconstruction.label
  chainCommitment := sha256B64url P (reconstruction.hopEvidence.flatMap shapeBytes)
  submittedCommitment := reconstruction.submittedCommitment

def commitsToVerifiedEvidence (self : EvidenceCommitment) : Bool :=
  !self.requestEvidence.isEmpty || !self.responseEvidence.isEmpty

def identifiesASubmission (self : EvidenceCommitment) : Bool := !self.submittedCommitment.isEmpty

end EvidenceCommitment

/-! ## Correspondence -/

inductive RetainedCorrespondence where
  | boundToVerifiedCall
  | boundToSubmissionOnly
  deriving DecidableEq, Repr

namespace EvidenceCommitment

def submissionCorrespondsTo (self recomputed : EvidenceCommitment) : Verdict Unit := do
  ensure self.identifiesASubmission (.malformedEvidence
    ("the statement carries no submission identity, so the retained submission cannot be bound " ++
      "to it"))
  ensure (recomputed.submittedCommitment == self.submittedCommitment)
    (.malformedEvidence "retained submission does not match the commitment")

def correspondsTo (self recomputed : EvidenceCommitment) : Verdict RetainedCorrespondence :=
  if !self.commitsToVerifiedEvidence || !recomputed.commitsToVerifiedEvidence then do
    self.submissionCorrespondsTo recomputed
    .ok .boundToSubmissionOnly
  else do
    ensure (recomputed.requestEvidence == self.requestEvidence)
      (.malformedEvidence "retained request evidence does not match the commitment")
    ensure (recomputed.responseEvidence == self.responseEvidence)
      (.malformedEvidence "retained response evidence does not match the commitment")
    ensure (recomputed.chainCommitment == self.chainCommitment)
      (.malformedEvidence "retained chain does not match the committed chain shape")
    ensure (recomputed.chainLabel == self.chainLabel)
      (.malformedEvidence "retained chain label does not match the commitment")
    ensure (recomputed.bindingsCommitment == self.bindingsCommitment)
      (.malformedEvidence "retained artifact bindings do not match the commitment")
    ensure (recomputed.verifiedContextCommitment == self.verifiedContextCommitment)
      (.malformedEvidence "retained verified context does not match the commitment")
    self.submissionCorrespondsTo recomputed
    .ok .boundToVerifiedCall

end EvidenceCommitment

def verifyRetainedEvidence (P : Platform) (commitment : EvidenceCommitment)
    (reconstruction : ChainReconstruction)
    (bindingsCommitment verifiedContextCommitment : Option Str) : Verdict RetainedCorrespondence :=
  commitment.correspondsTo (.fromReconstruction P reconstruction bindingsCommitment
    verifiedContextCommitment)

end McpRe.Scitt
