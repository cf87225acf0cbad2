import McpRe.Http.Floor
import McpRe.Http.Serde

/-!
# Evidence blocks

The wire types a signed body carries under `_meta` (`block.rs`, `block/artifact_binding.rs`), how
they are read out of a body (`body/mod.rs`), and the structural checks they pass before anything
else looks at them.
-/

namespace McpRe.Http

open Lib Lib.Result Lib.Text

/-! ## Identities -/

/-- `str::replace` of one character. -/
def replaceChar (c : Char) (by_ : String) (s : Str) : Str :=
  s.flatMap fun d => if d = c then by_.toList else [d]

def fieldEscape (s : Str) : Str :=
  replaceChar (Char.ofNat 0x1f) "%1F" (replaceChar ':' "%3A" (replaceChar '%' "%25" s))

def ActorIdentity.actorId (a : ActorIdentity) : Str :=
  fieldEscape a.role ++ ':' :: fieldEscape a.trustDomain ++ ':' :: fieldEscape a.subject
    ++ ':' :: fieldEscape a.keyid

def ActorIdentity.read (j : Json) : Option ActorIdentity := do
  let m ← j.members [.need "role", .need "trust_domain", .need "subject", .need "keyid"]
  some {
    role := ← Json.needed Json.asStr (m "role")
    trustDomain := ← Json.needed Json.asStr (m "trust_domain")
    subject := ← Json.needed Json.asStr (m "subject")
    keyid := ← Json.needed Json.asStr (m "keyid") }

structure AudienceTuple where
  audienceId : Str
  targetUri : Str
  route : Option Str
  deriving DecidableEq, Repr

def AudienceTuple.read (j : Json) : Option AudienceTuple := do
  let m ← j.members [.need "audience_id", .need "target_uri", .may "route"]
  some {
    audienceId := ← Json.needed Json.asStr (m "audience_id")
    targetUri := ← Json.needed Json.asStr (m "target_uri")
    route := ← Json.optional Json.asStr (m "route") }

/-- `canonical_bytes`: an absent route is an empty one. -/
def AudienceTuple.canonicalBytes (a : AudienceTuple) : Bytes :=
  utf8 (fieldEscape a.audienceId ++ Char.ofNat 0x1f :: fieldEscape a.targetUri
    ++ Char.ofNat 0x1f :: fieldEscape (a.route.getD []))

def AudienceTuple.audienceHash (P : Platform) (a : AudienceTuple) : Str :=
  b64urlEncode (P.sha256 a.canonicalBytes).bytes

def RequestEvidence.read (j : Json) : Option RequestEvidence := do
  let m ← j.members [.need "digest_alg", .need "digest_value"]
  some {
    digestAlg := ← Json.needed Json.asStr (m "digest_alg")
    digestValue := ← Json.needed Json.asStr (m "digest_value") }

/-! ## Artifact bindings -/

inductive ArtifactType where
  | oauthDpop
  | oauthMtls
  | oauthRar
  | pdpDecision
  | dtrApproval
  | classifierResult
  | humanApproval
  deriving DecidableEq, Repr

def ArtifactType.read : Json → Option ArtifactType :=
  Json.variant [("oauth-dpop", oauthDpop), ("oauth-mtls", oauthMtls), ("oauth-rar", oauthRar),
    ("pdp-decision", pdpDecision), ("dtr-approval", dtrApproval),
    ("classifier-result", classifierResult), ("human-approval", humanApproval)]

inductive BindingType where
  | opaqueDigest
  | referenceDigest
  deriving DecidableEq, Repr

def BindingType.read : Json → Option BindingType :=
  Json.variant [("opaque-digest", opaqueDigest), ("reference-digest", referenceDigest)]

structure ArtifactBinding where
  artifactType : ArtifactType
  bindingType : BindingType
  digestAlg : Str
  digestValue : Str
  authorizationSystemId : Option Str
  referenceSchemeId : Option Str
  referenceValue : Option Str
  deriving DecidableEq, Repr

def ArtifactBinding.read (j : Json) : Option ArtifactBinding := do
  let m ← j.members [.need "artifact_type", .need "binding_type", .need "digest_alg",
    .need "digest_value", .may "authorization_system_id", .may "reference_scheme_id",
    .may "reference_value"]
  some {
    artifactType := ← Json.needed ArtifactType.read (m "artifact_type")
    bindingType := ← Json.needed BindingType.read (m "binding_type")
    digestAlg := ← Json.needed Json.asStr (m "digest_alg")
    digestValue := ← Json.needed Json.asStr (m "digest_value")
    authorizationSystemId := ← Json.optional Json.asStr (m "authorization_system_id")
    referenceSchemeId := ← Json.optional Json.asStr (m "reference_scheme_id")
    referenceValue := ← Json.optional Json.asStr (m "reference_value") }

def isB64urlNoPad (s : Str) : Bool :=
  !s.isEmpty && s.all fun c => c.isAlphanum || c == '-' || c == '_'

/-- Is the text a digest of 32 bytes? -/
def isDigestValue (s : Str) : Bool :=
  isB64urlNoPad s && (b64urlDecode s).any fun d => decide (d.length = 32)

def ArtifactBinding.validate (b : ArtifactBinding) : Verdict Unit := do
  ensure (b.digestAlg == evidenceDigestAlg.toList) (malformed "artifact digest_alg")
  ensure (isDigestValue b.digestValue) (malformed "artifact digest_value")
  let refs := [b.authorizationSystemId, b.referenceSchemeId, b.referenceValue]
  match b.bindingType with
  | .opaqueDigest =>
    ensure (!refs.any Option.isSome) (malformed "opaque binding carries reference fields")
  | .referenceDigest =>
    ensure (refs.all fun f => f.any fun s => !s.isEmpty)
      (malformed "reference binding missing reference fields")

/-- The form of binding a transmitted decision answers to. -/
def ArtifactBinding.isPdpDigest (b : ArtifactBinding) : Bool :=
  b.artifactType == .pdpDecision && b.bindingType == .opaqueDigest

/-! ## The request block -/

structure HttpContinuation where
  continuationType : Str
  previousRequestEvidence : RequestEvidence
  inputRequiredResponseEvidence : RequestEvidence
  requestStateDigest : RequestEvidence
  deriving DecidableEq, Repr

def HttpContinuation.read (j : Json) : Option HttpContinuation := do
  let m ← j.members [.need "type", .need "previous_request_evidence",
    .need "input_required_response_evidence", .need "request_state_digest"]
  some {
    continuationType := ← Json.needed Json.asStr (m "type")
    previousRequestEvidence := ← Json.needed RequestEvidence.read (m "previous_request_evidence")
    inputRequiredResponseEvidence :=
      ← Json.needed RequestEvidence.read (m "input_required_response_evidence")
    requestStateDigest := ← Json.needed RequestEvidence.read (m "request_state_digest") }

def continuationTypeMcpMrt : String := "mcp-mrt"

/-- `HttpContinuation::verify`: each handle is checked in its role. -/
def HttpContinuation.verify (P : Platform) (c : HttpContinuation)
    (previousRequestBase inputRequiredResponseBase requestState : Bytes) : Verdict Unit := do
  ensure (c.continuationType == continuationTypeMcpMrt.toList) (malformed "continuation type")
  ensure (c.previousRequestEvidence.matchesLabeled P evidenceLabelRequest previousRequestBase
      && c.inputRequiredResponseEvidence.matchesLabeled P evidenceLabelResponse
        inputRequiredResponseBase
      && c.requestStateDigest.matchesLabeled P evidenceLabelRequestState requestState)
    .continuationBindingFailed

structure AdmissionBinding where
  bindingType : BindingType
  admissionId : Str
  generation : Nat
  digestAlg : Str
  digestValue : Str
  deriving DecidableEq, Repr

def AdmissionBinding.read (j : Json) : Option AdmissionBinding := do
  let m ← j.members [.need "binding_type", .need "admission_id", .need "generation",
    .need "digest_alg", .need "digest_value"]
  some {
    bindingType := ← Json.needed BindingType.read (m "binding_type")
    admissionId := ← Json.needed Json.asStr (m "admission_id")
    generation := ← Json.needed Json.asU64 (m "generation")
    digestAlg := ← Json.needed Json.asStr (m "digest_alg")
    digestValue := ← Json.needed Json.asStr (m "digest_value") }

structure HttpRequestEvidenceBlock where
  profile : Str
  audience : AudienceTuple
  artifactBindings : List ArtifactBinding
  continuation : Option HttpContinuation
  admission : Option AdmissionBinding
  admissionAssertion : Option Str
  authorizationDecision : Option Str
  deriving DecidableEq, Repr

def HttpRequestEvidenceBlock.read (j : Json) : Option HttpRequestEvidenceBlock := do
  let m ← j.members [.need "profile", .need "audience", .need "artifact_bindings",
    .may "continuation", .may "admission", .may "admission_assertion",
    .may "authorization_decision"]
  some {
    profile := ← Json.needed Json.asStr (m "profile")
    audience := ← Json.needed AudienceTuple.read (m "audience")
    artifactBindings := ← Json.needed (Json.vec ArtifactBinding.read) (m "artifact_bindings")
    continuation := ← Json.optional HttpContinuation.read (m "continuation")
    admission := ← Json.optional AdmissionBinding.read (m "admission")
    admissionAssertion := ← Json.optional Json.asStr (m "admission_assertion")
    authorizationDecision := ← Json.optional Json.asStr (m "authorization_decision") }

namespace HttpRequestEvidenceBlock

def maxAdmissionAssertionLen : Nat := 8192

def maxAuthorizationDecisionLen : Nat := 8192

variable (block : HttpRequestEvidenceBlock)

/-- A length in the source counts bytes. -/
def validateAdmission : Verdict Unit :=
  match block.admission, block.admissionAssertion with
  | none, none => .ok ()
  | some _, some jws =>
    ensure (decide ((utf8 jws).length ≤ maxAdmissionAssertionLen))
      (malformed "admission assertion size")
  | _, _ => .error (malformed "admission binding and assertion must appear together")

def validateAuthorizationDecision : Verdict Unit :=
  let applicable := (block.artifactBindings.filter ArtifactBinding.isPdpDigest).length
  match block.authorizationDecision with
  | none => .ok ()
  | some jws =>
    if maxAuthorizationDecisionLen < (utf8 jws).length then
      .error (malformed "authorization decision size")
    else
      match applicable with
      | 1 => .ok ()
      | 0 =>
        .error (malformed "authorization decision without a pdp-decision opaque-digest binding")
      | _ => .error (malformed "more than one pdp-decision opaque-digest binding")

def validate (expectedProfile : Str) : Verdict Unit := do
  ensure (block.profile == expectedProfile) .unknownProfileTag
  ensure (!block.artifactBindings.isEmpty) (malformed "empty artifact_bindings")
  block.artifactBindings.forM ArtifactBinding.validate
  block.validateAdmission
  block.validateAuthorizationDecision

end HttpRequestEvidenceBlock

/-! ## The response block -/

structure HttpResponseEvidenceBlock where
  profile : Str
  serverSigner : ActorIdentity
  serverDelegation : Option Str
  requestEvidence : RequestEvidence
  deriving DecidableEq, Repr

def HttpResponseEvidenceBlock.read (j : Json) : Option HttpResponseEvidenceBlock := do
  let m ← j.members [.need "profile", .need "server_signer", .may "server_delegation",
    .need "request_evidence"]
  some {
    profile := ← Json.needed Json.asStr (m "profile")
    serverSigner := ← Json.needed ActorIdentity.read (m "server_signer")
    serverDelegation := ← Json.optional Json.asStr (m "server_delegation")
    requestEvidence := ← Json.needed RequestEvidence.read (m "request_evidence") }

def HttpResponseEvidenceBlock.validate (block : HttpResponseEvidenceBlock)
    (expectedProfile : Str) : Verdict Unit :=
  ensure (block.profile == expectedProfile) .unknownProfileTag

/-! ## Blocks in a body -/

def requestEvidenceBlockKey : String := "se.syncom/mcp-re.http.request"

def responseEvidenceBlockKey : String := "se.syncom/mcp-re.http.response"

/-- `extract_meta_block`: the member `key` of the body's `_meta`, read as a block. -/
def extractMetaBlock {α : Type} (P : Platform) (read : Json → Option α) (body : Bytes)
    (key what : String) : Verdict α := do
  let root ← okOr (P.fromSlice body) (malformed "body json")
  let block ← okOr ((root.get "_meta").bind (Json.get key)) (.missingEvidence what)
  okOr (read block) (malformed what)

end McpRe.Http
