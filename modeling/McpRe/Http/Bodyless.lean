import McpRe.Http.Response
import McpRe.Http.Sign

/-!
# Acknowledgements without a body

The signed `202 Accepted` of a notification (`bodyless/mod.rs`). It has no body to carry an evidence
block, so the digest of the request's own signature base stands in a covered header, and the
credential of the delegated key in another (`delegated_credential.rs`). The client's side is
`verify_delegated_accepted_202` (`delegated_ack.rs`, `acknowledged.rs`).
-/

namespace McpRe.Http

open Lib Lib.Result Lib.Text

def mcpReRequestEvidenceHeader : String := "mcp-re-request-evidence"

def mcpReDelegationHeader : String := "mcp-re-delegation"

def maxDelegationHeaderLen : Nat := 8192

def bodylessDelegatedResponseComponents : List ComponentName :=
  [.status, .contentDigest, .mcpReDelegation, .mcpReRequestEvidence]

def statusAccepted : UInt16 := 202

/-! ## The server's side -/

/-- `emit`: the core signer's base64url is decoded again, as in `emit_signature`. -/
def emit (headers : Headers) (label : String) (components : List CoveredComponent)
    (params : SignatureParams) (base : Bytes) (key : SigningKey) : Verdict Headers :=
  emitSignature headers label components params base (localSig key)

def requestEvidenceHeader (P : Platform) (request : HttpRequest) : Verdict (Str × Str) := do
  let evidence ← requestEvidenceOf P request
  .ok (mcpReRequestEvidenceHeader.toList, evidence.digestValue)

def signDelegatedAccepted202 (P : Platform) (request : HttpRequest) (serverDelegation : Str)
    (delegatedKey : SigningKey) (delegatedKid : Str) (created expires : I64) :
    Verdict HttpResponse := do
  ensure (!decide (maxDelegationHeaderLen < (utf8 serverDelegation).length))
    (.malformedEvidence "delegation header too large")
  let evidence ← requestEvidenceHeader P request
  let response : HttpResponse := {
    status := statusAccepted
    headers := [("Content-Digest".toList, contentDigestSha256 P []),
      (mcpReDelegationHeader.toList, serverDelegation), evidence]
    body := [] }
  let components : List CoveredComponent :=
    (bodylessDelegatedResponseComponents.map fun n => ⟨n, false⟩)
      ++ requiredResponseReqComponents.map fun n => ⟨n, true⟩
  let params := profileParams none delegatedKid created expires
  let base ← signatureBase components params (.response response request)
  let headers ← emit response.headers responseLabel components params base delegatedKey
  .ok { response with headers }

/-! ## The envelope -/

def requireBodyless (headers : Headers) (body : Bytes) : Verdict Unit := do
  let contentType ← singleHeader headers "content-type"
  ensure contentType.isNone (.malformedEvidence "content-type on a bodyless message")
  ensure body.isEmpty (.malformedEvidence "content on a bodyless message")

def checkRequestEvidence (P : Platform) (responseHeaders : Headers) (request : HttpRequest) :
    Verdict Unit := do
  let claimed ← (requiredHeader responseHeaders mcpReRequestEvidenceHeader).mapError fun _ =>
    .missingEvidence "response request-evidence"
  let derived ← requestEvidenceOf P request
  ensure (claimed == derived.digestValue) .responseBindingMismatch

def checkEnvelope (P : Platform) (response : HttpResponse) (request : HttpRequest) :
    Verdict Unit := do
  rejectContentEncoding response.headers
  requireBodyless response.headers response.body
  ensure (response.status == statusAccepted) (.malformedEvidence "bodyless acknowledgement status")
  let digestHeader ← (requiredHeader response.headers "content-digest").mapError fun _ =>
    .missingEvidence "response content-digest"
  verifyContentDigestSha256 P digestHeader response.body
  checkRequestEvidence P response.headers request

/-- `check_coverage`: the named set exactly, and no `content-type`. -/
def checkCoverage (headers : Headers) (policy : VerifierPolicy) (now : I64) :
    Verdict (ParsedSignatureInput × CheckedParams) := do
  let parsed ← parseSignatureInputFor headers responseLabel.toList "response signature-input"
  requireComponents parsed.components bodylessDelegatedResponseComponents
    requiredResponseReqComponents
  ensure (!parsed.components.any fun c => !c.req && c.name == .contentType)
    (.malformedEvidence "content-type covered on a bodyless message")
  let checked ← checkParams parsed.params policy now false
  .ok (parsed, checked)

/-! ## The credential -/

def readCredential (headers : Headers) : Verdict Str := do
  let value ← singleHeader headers mcpReDelegationHeader
  let credential ← okOr value .delegationCredentialMissing
  ensure (!decide (maxDelegationHeaderLen < (utf8 credential).length))
    (.malformedEvidence "delegation header too large")
  .ok credential

/-- The `mcp_re_server_signer` of a credential, read without verifying it. -/
def credentialServerSigner (P : Platform) (compactJws : Str) : Verdict Str := do
  let payload ← okOr (compactJws.splitOn '.')[1]? .delegationCredentialInvalid
  let bytes ← okOr (b64urlDecode payload) .delegationCredentialInvalid
  let value ← okOr (P.fromSlice bytes) .delegationCredentialInvalid
  okOr ((value.get "mcp_re_server_signer").bind Json.asStr) .delegationCredentialInvalid

/-- `verify_credential`. The trust seam is asked as in `chainToRoot`, and what it cannot answer
stands for the same error. -/
def verifyCredential (P : Platform) (credential : Str) (resolveActor : Resolver)
    (expect : DelegationExpectations) (isRevoked : Str → Bool) (now : I64) :
    Verdict (VerifiedDelegation × Str) := do
  let serverSigner ← credentialServerSigner P credential
  let params : DelegationVerifyParams := {
    now
    maxClockSkew := expect.maxClockSkew
    verifierAudiences := expect.verifierAudiences
    expectedProfile := profileTag.toList
    expectedAudienceHash := expect.expectedAudienceHash
    expectedServerSigner := serverSigner
    acceptedEpochs := expect.acceptedEpochs }
  let verified ← (verifyDelegationCredential P credential params (resolveRoot resolveActor)
    isRevoked).mapError fun e =>
      if e = .delegationIssuerUntrusted then (resolveFailure P resolveActor credential).getD e
      else e
  .ok (verified, serverSigner)

/-- `str::replace` of a three-character pattern. -/
def replaceTriple (a b c by_ : Char) : Str → Str
  | x :: y :: z :: rest =>
    if x = a ∧ y = b ∧ z = c then by_ :: replaceTriple a b c by_ rest
    else x :: replaceTriple a b c by_ (y :: z :: rest)
  | s => s

def unescapeActorField (s : Str) : Str :=
  replaceTriple '%' '2' '5' '%'
    (replaceTriple '%' '3' 'A' ':' (replaceTriple '%' '1' 'F' (Char.ofNat 0x1f) s))

def checkScopeNamesTheSigningKey (keyId serverSigner delegatedKid : Str) : Verdict Unit := do
  ensure (keyId == delegatedKid) .delegationKeyMismatch
  let scopedKeyid ← okOr (serverSigner.splitOn ':').getLast? .delegationProfileMismatch
  ensure (unescapeActorField scopedKeyid == delegatedKid) .delegationKeyMismatch

/-! ## The client's side -/

structure AcknowledgedDelegation where
  actor : ResolvedActor
  issuerKid : Str
  deriving DecidableEq, Repr

/-- `established`: the actor and the anchor of one verified credential. -/
def AcknowledgedDelegation.established (verified : VerifiedDelegation) :
    AcknowledgedDelegation where
  actor := {
    identity := ⟨"server".toList, [], verified.serverSigner, verified.delegatedKid⟩
    verificationKey := verified.delegatedKey
    slot := .response }
  issuerKid := verified.issuerKid

def verifyDelegatedAccepted202 (P : Platform) (response : HttpResponse) (request : HttpRequest)
    (resolveActor : Resolver) (policy : VerifierPolicy) (expect : DelegationExpectations)
    (isRevoked : Str → Bool) (now : I64) : Verdict AcknowledgedDelegation := do
  checkEnvelope P response request
  let credential ← readCredential response.headers
  let (parsed, checked) ← checkCoverage response.headers policy now
  let (verified, serverSigner) ← verifyCredential P credential resolveActor expect isRevoked now
  checkScopeNamesTheSigningKey checked.keyId serverSigner verified.delegatedKid
  let base ← signatureBase parsed.components parsed.params (.response response request)
  let sig ← signatureValueB64url response.headers "signature" responseLabel.toList
  verifyUnder P checked.algorithm base sig verified.delegatedKey .delegationKeyMismatch
  .ok (.established verified)

end McpRe.Http
