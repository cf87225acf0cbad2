import McpRe.Http.Block

/-!
# Artifact bindings of a request

`enforce_full_profile_bindings` (`verify/full/request.rs`): the block names the audience the
verifier stands for, and each artifact it binds is the one presented. A DPoP token is taken from the
covered `authorization` header, a policy decision from the block itself, every other artifact from
the caller (`artifact.rs`, `pdp_decision/binding.rs`).
-/

namespace McpRe.Http

open Lib Lib.Result Lib.Text

def bearerToken (authorizationHeader : Str) : Option Str := do
  let rest ← stripPrefix "Bearer ".toList authorizationHeader
  let token := trim rest
  if token.isEmpty then none else some token

/-- `authorization_bearer_bytes`: of the first such header. -/
def authorizationBearerBytes (headers : Headers) : Option Bytes := do
  let field ← headers.find? (isField "authorization")
  let token ← bearerToken field.2
  some (utf8 token)

def sha256B64url (P : Platform) (bytes : Bytes) : Str :=
  b64urlEncode (P.sha256 bytes).bytes

inductive PdpBindingRefusal where
  | notTheEvidenceForm
  | malformed
  | digestMismatch
  deriving DecidableEq, Repr

namespace ArtifactBinding

variable (P : Platform) (binding : ArtifactBinding)

def expectType (want : ArtifactType) : Verdict Unit := do
  ensure (binding.artifactType == want && binding.bindingType == .opaqueDigest)
    .artifactBindingFailed
  binding.validate

def compare (credential : Bytes) : Verdict Unit :=
  ensure (sha256B64url P credential == binding.digestValue) .artifactBindingFailed

/-- The typed verifiers, which differ in the type they expect. -/
def verifyOpaque (want : ArtifactType) (credential : Bytes) : Verdict Unit := do
  binding.expectType want
  binding.compare P credential

def verifyDpopAth (accessToken : Bytes) : Verdict Unit :=
  binding.verifyOpaque P .oauthDpop accessToken

def verifyMtlsX5tS256 (certDer : Bytes) : Verdict Unit :=
  binding.verifyOpaque P .oauthMtls certDer

def verifyRarDetails (authorizationDetailsCanonical : Bytes) : Verdict Unit :=
  binding.verifyOpaque P .oauthRar authorizationDetailsCanonical

def verifyArtifactBinding (credential : Bytes) : Verdict Unit :=
  match binding.artifactType with
  | .oauthDpop => binding.verifyDpopAth P credential
  | .oauthMtls => binding.verifyMtlsX5tS256 P credential
  | .oauthRar => binding.verifyRarDetails P credential
  | .pdpDecision | .dtrApproval | .classifierResult | .humanApproval =>
    .error (malformed "no typed verifier for this artifact_type yet")

def verifyPdpDecisionBinding (decision : Str) : Except PdpBindingRefusal Unit := do
  ensure binding.isPdpDigest .notTheEvidenceForm
  binding.validate.mapError fun _ => .malformed
  ensure (sha256B64url P (utf8 decision) == binding.digestValue) .digestMismatch

def resolveArtifactCredential (headers : Headers)
    (artifactMaterial : ArtifactBinding → Option Bytes) : Option Bytes :=
  match binding.artifactType with
  | .oauthDpop => authorizationBearerBytes headers
  | .oauthMtls | .oauthRar | .pdpDecision | .dtrApproval | .classifierResult | .humanApproval =>
    artifactMaterial binding

/-- The body of the loop over a block's bindings. -/
def enforce (request : HttpRequest) (block : HttpRequestEvidenceBlock)
    (artifactMaterial : ArtifactBinding → Option Bytes) : Verdict Unit :=
  match block.authorizationDecision, binding.isPdpDigest with
  | some decision, true =>
    (binding.verifyPdpDecisionBinding P decision).mapError fun _ => .artifactBindingFailed
  | _, _ => do
    let credential ← okOr (binding.resolveArtifactCredential request.headers artifactMaterial)
      .artifactBindingFailed
    binding.verifyArtifactBinding P credential

end ArtifactBinding

def enforceFullProfileBindings (P : Platform) (request : HttpRequest)
    (block : HttpRequestEvidenceBlock) (expectedAudience : AudienceTuple)
    (artifactMaterial : ArtifactBinding → Option Bytes) : Verdict Unit := do
  ensure (block.audience == expectedAudience && expectedAudience.targetUri == request.targetUri)
    .audienceMismatch
  block.artifactBindings.forM fun binding => binding.enforce P request block artifactMaterial

end McpRe.Http
