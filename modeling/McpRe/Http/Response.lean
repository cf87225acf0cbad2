import McpRe.Http.Delegation

/-!
# Responses under a delegated key

`delegated_bound_response` (`verify/full/delegated/bound.rs`): a response whose signature covers the
request it answers, verified under the key its inline credential delegates to, with that credential
chained to a root the trust seam knows (`credential_chain.rs`).
-/

namespace McpRe.Http

open Lib Lib.Result Lib.Text

def requiredResponseComponents : List ComponentName := [.status, .contentDigest, .contentType]

def requiredResponseReqComponents : List ComponentName :=
  [.method, .targetUri, .contentDigest, .contentType]

/-- What every response check begins with: the wire preconditions, the body against its digest, and
the parsed `Signature-Input` member. -/
def openResponse (P : Platform) (response : HttpResponse) : Verdict ParsedSignatureInput := do
  rejectContentEncoding response.headers
  requireJsonMediaType response.headers "response content-type"
  let digestHeader ← (requiredHeader response.headers "content-digest").mapError fun _ =>
    .missingEvidence "response content-digest"
  verifyContentDigestSha256 P digestHeader response.body
  parseSignatureInputFor response.headers responseLabel.toList "response signature-input"

/-! ## The bound request -/

/-- The signature base of a request as its own `Signature-Input` describes it. -/
def requestBaseOf (request : HttpRequest) : Verdict Bytes := do
  let parsed ← parseSignatureInputFor request.headers requestLabel.toList "request signature-input"
  signatureBase parsed.components parsed.params (.request request)

def requestEvidenceOf (P : Platform) (request : HttpRequest) : Verdict RequestEvidence := do
  let base ← requestBaseOf request
  .ok (.fromSignatureBase P base)

/-! ## The credential's chain -/

structure DelegationExpectations where
  verifierAudiences : List Str
  expectedAudienceHash : Str
  acceptedEpochs : List Str
  maxClockSkew : I64

def parseCredential (P : Platform) (compactJws : Str) :
    Verdict (DelegationHeader × DelegationClaims) := do
  let segments ← splitCompactJws compactJws
  let header ← decodeJson P DelegationHeader.read segments.1
  let claims ← decodeJson P DelegationClaims.read segments.2.1
  .ok (header, claims)

/-- The trust seam as the credential check sees it. -/
def resolveRoot (resolveActor : Resolver) (issuerKid : Str) : Option VerificationKey :=
  match resolveActorForSlot resolveActor issuerKid .response with
  | .ok actor => some actor.verificationKey
  | .error _ => none

/-- The failure `resolveRoot` keeps in a cell when it is asked for the credential's issuer: any but
`UnresolvedKeyId`. -/
def resolveFailure (P : Platform) (resolveActor : Resolver) (credential : Str) :
    Option HttpProfileError :=
  match parseCredential P credential with
  | .error _ => none
  | .ok (_, claims) =>
    match resolveActorForSlot resolveActor claims.issuerKid .response with
    | .ok _ => none
    | .error .unresolvedKeyId => none
    | .error e => some e

/-- `chain_to_root`. The seam is asked at most once, and a refusal of it ends the check with
`DelegationIssuerUntrusted`, so a kept failure can only stand for that error. -/
def chainToRoot (P : Platform) (credential : Str) (block : HttpResponseEvidenceBlock)
    (resolveActor : Resolver) (expect : DelegationExpectations) (isRevoked : Str → Bool)
    (now : I64) : Verdict VerifiedDelegation :=
  let params : DelegationVerifyParams := {
    now
    maxClockSkew := expect.maxClockSkew
    verifierAudiences := expect.verifierAudiences
    expectedProfile := profileTag.toList
    expectedAudienceHash := expect.expectedAudienceHash
    expectedServerSigner := block.serverSigner.actorId
    acceptedEpochs := expect.acceptedEpochs }
  (verifyDelegationCredential P credential params (resolveRoot resolveActor) isRevoked).mapError
    fun e =>
      if e = .delegationIssuerUntrusted then (resolveFailure P resolveActor credential).getD e
      else e

/-! ## The bound response -/

structure AcceptedResponseSigner where
  identity : ActorIdentity
  verificationKey : VerificationKey
  deriving DecidableEq, Repr

structure BoundResponseSignatureFacts where
  acceptedSigner : AcceptedResponseSigner
  responseSignatureBaseDigest : RequestEvidence
  deriving DecidableEq, Repr

structure BoundRequestEvidenceAgreement where
  boundRequestEvidence : RequestEvidence
  bodyRequestEvidence : RequestEvidence
  deriving DecidableEq, Repr

structure VerifiedDelegatedMcpResponse where
  signatureFacts : BoundResponseSignatureFacts
  requestEvidenceAgreement : BoundRequestEvidenceAgreement
  delegationIssuerKid : Str
  deriving DecidableEq, Repr

def delegatedBoundResponse (P : Platform) (response : HttpResponse) (request : HttpRequest)
    (resolveActor : Resolver) (policy : VerifierPolicy) (expect : DelegationExpectations)
    (isRevoked : Str → Bool) (now : I64) : Verdict VerifiedDelegatedMcpResponse := do
  let parsed ← openResponse P response
  requireComponents parsed.components requiredResponseComponents requiredResponseReqComponents
  let checked ← checkParams parsed.params policy now false
  let block ← extractMetaBlock P HttpResponseEvidenceBlock.read response.body
    responseEvidenceBlockKey "response evidence block"
  block.validate profileTag.toList
  let credential ← okOr block.serverDelegation .delegationCredentialMissing
  let verified ← chainToRoot P credential block resolveActor expect isRevoked now
  ensure (checked.keyId == verified.delegatedKid && block.serverSigner.keyid == verified.delegatedKid)
    .delegationKeyMismatch
  let base ← signatureBase parsed.components parsed.params (.response response request)
  let sig ← signatureValueB64url response.headers "response signature" responseLabel.toList
  verifyUnder P checked.algorithm base sig verified.delegatedKey .delegationKeyMismatch
  let bound ← requestEvidenceOf P request
  ensure (block.requestEvidence == bound) .responseBindingMismatch
  .ok {
    signatureFacts := {
      acceptedSigner := ⟨block.serverSigner, verified.delegatedKey⟩
      responseSignatureBaseDigest := .fromResponseSignatureBase P base }
    requestEvidenceAgreement := ⟨bound, block.requestEvidence⟩
    delegationIssuerKid := verified.issuerKid }

end McpRe.Http
