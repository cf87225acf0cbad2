import McpRe.Http.Response
import McpRe.Http.Sign

/-!
# Responses under a key of the trust seam

`sign_response_with_signer` (`sign.rs`) signs a response over the request it answers.
`floor_bound_response` (`verify/floor/response.rs`) checks digest and signature against a request,
and `full_bound_response` (`verify/full/response.rs`) adds the comparison of the evidence block with
that request.
-/

namespace McpRe.Http

open Lib Lib.Result Lib.Text

/-- `sign_response_with_signer`: the signed response and the base that was signed. -/
def signResponseWithSigner (P : Platform) (response : HttpResponse) (request : HttpRequest)
    (signBase : Signer) (keyId : Str) (created expires : I64) : Verdict (HttpResponse × Bytes) := do
  rejectContentEncoding response.headers
  let response := { response with
    headers := setHeader response.headers "Content-Digest" (contentDigestSha256 P response.body) }
  let components : List CoveredComponent :=
    (requiredResponseComponents.map fun n => ⟨n, false⟩)
      ++ requiredResponseReqComponents.map fun n => ⟨n, true⟩
  let params := profileParams none keyId created expires
  let base ← signatureBase components params (.response response request)
  let headers ← emitSignature response.headers responseLabel components params base signBase
  .ok ({ response with headers }, base)

structure CryptographicFloorVerifiedBoundResponse where
  resolvedServerActor : ResolvedActor
  responseSignatureBaseDigest : RequestEvidence
  deriving DecidableEq, Repr

def floorBoundResponse (P : Platform) (response : HttpResponse) (request : HttpRequest)
    (resolveActor : Resolver) (policy : VerifierPolicy) (now : I64) :
    Verdict CryptographicFloorVerifiedBoundResponse := do
  let parsed ← openResponse P response
  requireComponents parsed.components requiredResponseComponents requiredResponseReqComponents
  let checked ← checkParams parsed.params policy now false
  let resolvedServerActor ← resolveActorForSlot resolveActor checked.keyId .response
  let base ← signatureBase parsed.components parsed.params (.response response request)
  let sig ← signatureValueB64url response.headers "response signature" responseLabel.toList
  verifyUnder P checked.algorithm base sig resolvedServerActor.verificationKey
    .responseSignatureInvalid
  .ok {
    resolvedServerActor
    responseSignatureBaseDigest := .fromResponseSignatureBase P base }

structure VerifiedMcpResponse where
  floor : CryptographicFloorVerifiedBoundResponse
  requestEvidenceAgreement : BoundRequestEvidenceAgreement
  serverSigner : ActorIdentity
  deriving DecidableEq, Repr

def fullBoundResponse (P : Platform) (response : HttpResponse) (request : HttpRequest)
    (resolveActor : Resolver) (policy : VerifierPolicy) (now : I64) :
    Verdict VerifiedMcpResponse := do
  let floor ← floorBoundResponse P response request resolveActor policy now
  let block ← extractMetaBlock P HttpResponseEvidenceBlock.read response.body
    responseEvidenceBlockKey "response evidence block"
  block.validate profileTag.toList
  let bound ← requestEvidenceOf P request
  ensure (block.serverSigner.keyid == floor.resolvedServerActor.identity.keyid)
    .responseBindingMismatch
  ensure (block.requestEvidence == bound) .responseBindingMismatch
  .ok ⟨floor, ⟨bound, block.requestEvidence⟩, block.serverSigner⟩

end McpRe.Http
