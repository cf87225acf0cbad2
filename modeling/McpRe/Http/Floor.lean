import McpRe.Http.Policy
import McpRe.Http.SignatureInput

/-!
# The request's cryptographic floor

`floor_request` (`verify/floor/request.rs`) with the checks it runs: the body matches its digest,
the covered components are the required ones, the window is current, and the signature verifies
over the reconstructed base under a key trusted for the request slot.
-/

namespace McpRe.Http

open Lib Lib.Result Lib.Text

/-! ## Actors -/

structure ActorIdentity where
  role : Str
  trustDomain : Str
  subject : Str
  keyid : Str
  deriving DecidableEq, Repr

inductive SignerSlot where
  | request
  | response
  deriving DecidableEq, Repr

structure ResolvedActor where
  identity : ActorIdentity
  verificationKey : VerificationKey
  slot : SignerSlot
  deriving DecidableEq, Repr

inductive ResolverOutcome where
  | resolved (actor : ResolvedActor)
  | notTrusted
  | unavailable

/-- The trust seam: a key id and a slot to an outcome. -/
abbrev Resolver := Str → SignerSlot → ResolverOutcome

def resolveActorForSlot (resolveActor : Resolver) (keyId : Str) (slot : SignerSlot) :
    Verdict ResolvedActor :=
  match resolveActor keyId slot with
  | .resolved actor => if actor.slot ≠ slot then .error .actorSlotMismatch else .ok actor
  | .notTrusted => .error .unresolvedKeyId
  | .unavailable => .error .trustResolverUnavailable

/-! ## Covered components -/

def requiredRequestComponents : List ComponentName :=
  [.method, .targetUri, .contentDigest, .contentType]

/-- The loop over required components of one kind. -/
def requireAll (covered : List CoveredComponent) (req : Bool) : List ComponentName → Verdict Unit
  | [] => .ok ()
  | name :: names => do
    ensure (covered.contains ⟨name, req⟩) (.missingCoveredComponent name.text)
    requireAll covered req names

def requireComponents (covered : List CoveredComponent)
    (requiredPlain requiredReq : List ComponentName) : Verdict Unit := do
  requireAll covered false requiredPlain
  requireAll covered true requiredReq

def conditionallyCoveredRequestHeaders : List ComponentName :=
  [.authorization, .dpop, .mcpMethod, .mcpName, .mcpProtocolVersion]

/-- The loop of `require_conditional_coverage`. -/
def requireCoverage (headers : Headers) (covered : List CoveredComponent) :
    List ComponentName → Verdict Unit
  | [] => .ok ()
  | header :: rest => do
    let value ← singleHeader headers header.text
    ensure (!(value.isSome && !covered.contains ⟨header, false⟩))
      (.missingCoveredComponent header.text)
    requireCoverage headers covered rest

/-- `require_conditional_coverage`: a present header of the set is covered. -/
def requireConditionalCoverage (headers : Headers) (covered : List CoveredComponent) :
    Verdict Unit :=
  requireCoverage headers covered conditionallyCoveredRequestHeaders

/-! ## Parameters -/

def windowAdmits (created expires now skew : I64) : Bool :=
  decide (created.saturatingSub skew ≤ now) && decide (now < expires.saturatingAdd skew)
    && decide (created < expires)

/-- What `check_params` returns. -/
structure CheckedParams where
  created : I64
  expires : I64
  nonce : Str
  keyId : Str
  algorithm : ProfileAlgorithm

def checkParams (params : SignatureParams) (policy : VerifierPolicy) (now : I64)
    (requireNonce : Bool) : Verdict CheckedParams := do
  ensure (params.tag == some profileTag.toList) .unknownProfileTag
  let algorithm ← okOr (params.alg.bind policy.acceptedAlgorithm) .unsupportedAlgorithm
  let created ← okOr params.created .staleWindow
  let expires ← okOr params.expires .staleWindow
  ensure (windowAdmits created expires now policy.maxClockSkew) .staleWindow
  ensure (!decide (policy.maxSignatureValidity < expires.saturatingSub created)) .staleWindow
  let nonce ← match params.nonce, requireNonce with
    | some n, _ => .ok n
    | none, false => .ok []
    | none, true => .error (.missingEvidence "nonce")
  let keyId ← okOr params.keyid (.missingEvidence "keyid")
  .ok ⟨created, expires, nonce, keyId, algorithm⟩

/-! ## The signature -/

def b64urlEncode (bytes : Bytes) : Str := Base64.encode Base64.urlSafeNoPad bytes

/-- `b64url_decode`, up to its error. -/
def b64urlDecode (s : Str) : Option Bytes := Base64.decode Base64.urlSafeNoPad s

def signatureLen : Nat := 64

/-- `verify_ed25519_with`: does the signature verify? -/
def verifyEd25519With (P : Platform) (preimage : Bytes) (signatureB64url : Str)
    (key : VerificationKey) : Bool :=
  match b64urlDecode signatureB64url with
  | none => false
  | some bytes => decide (bytes.length = signatureLen) && P.verifyStrict key preimage bytes

/-- `verify_under`, with the failure of the caller's slot. -/
def verifyUnder (P : Platform) (algorithm : ProfileAlgorithm) (base : Bytes) (sig : Str)
    (key : VerificationKey) (failure : HttpProfileError) : Verdict Unit :=
  match algorithm with
  | .ed25519 => ensure (verifyEd25519With P base sig key) failure

def signatureValueB64url (headers : Headers) (headerError : String) (label : Str) :
    Verdict Str := do
  let header ← (requiredHeader headers "signature").mapError fun _ => .missingEvidence headerError
  let member ← memberValue header label
  let b64 ← okOr ((stripPrefix [':'] member).bind (stripSuffix [':']))
    (malformed "signature byte sequence")
  let bytes ← okOr (Base64.decode Base64.standard b64) .invalidSignature
  .ok (b64urlEncode bytes)

/-! ## The floor -/

structure CryptographicFloorVerifiedRequest where
  profileId : Str
  signatureLabel : Str
  resolvedActor : ResolvedActor
  evidence : RequestEvidence
  requestSignatureBase : Bytes
  contentDigest : Str
  created : I64
  expires : I64
  nonce : Str
  keyId : Str
  deriving DecidableEq, Repr

/-- The configurable part of the transport contract, where the deployment attached one. -/
def VerifierPolicy.enforceMcpTransport (policy : VerifierPolicy) (P : Platform)
    (request : HttpRequest) : Verdict Unit :=
  match policy.mcpTransport with
  | some transport => transport.enforce P request
  | none => .ok ()

/-- The request's parsed `Signature-Input` member. -/
def requestSignatureInput (request : HttpRequest) : Verdict ParsedSignatureInput := do
  let inputHeader ← requiredHeader request.headers "signature-input"
  let value ← memberValue inputHeader requestLabel.toList
  parseSignatureInput value

def floorRequest (P : Platform) (request : HttpRequest) (resolveActor : Resolver)
    (policy : VerifierPolicy) (now : I64) : Verdict CryptographicFloorVerifiedRequest := do
  rejectContentEncoding request.headers
  requireJsonMediaType request.headers "request content-type"
  -- content binding comes before any signature statement about the digest
  let contentDigest ← requiredHeader request.headers "content-digest"
  verifyContentDigestSha256 P contentDigest request.body
  let parsed ← requestSignatureInput request
  requireComponents parsed.components requiredRequestComponents []
  ensure (!parsed.components.any fun c => c.req) (malformed "req component on a request")
  requireConditionalCoverage request.headers parsed.components
  let checked ← checkParams parsed.params policy now true
  let resolvedActor ← resolveActorForSlot resolveActor checked.keyId .request
  let base ← signatureBase parsed.components parsed.params (.request request)
  let sig ← signatureValueB64url request.headers "signature" requestLabel.toList
  verifyUnder P checked.algorithm base sig resolvedActor.verificationKey .invalidSignature
  -- the transport contract comes after the signature: before it both sides are unauthenticated
  rejectMcpMethodDivergence P request
  policy.enforceMcpTransport P request
  .ok {
    profileId := profileTag.toList
    signatureLabel := requestLabel.toList
    resolvedActor
    evidence := .fromSignatureBase P base
    requestSignatureBase := base
    contentDigest
    created := checked.created
    expires := checked.expires
    nonce := checked.nonce
    keyId := checked.keyId }

end McpRe.Http
