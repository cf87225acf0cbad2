import McpRe.Http.Body
import McpRe.Http.Delegation

/-!
# The admission check

An admission authority signs what it admitted a workload to (`admission/mod.rs`), and a call is
bound to that assertion. `checkAdmission` verifies the assertion and the binding, and then compares
them with the authoritative state, or without one settles for a degraded candidate.
-/

namespace McpRe.Admission

open Lib Lib.Result Lib.Text Http
open Http.Json (field ofU64 ofI64)

def admissionTyp : String := "mcp-re-admission+jws"

def admissionAlg : String := "EdDSA"

inductive AdmissionStatus where
  | admitted
  | suspended
  | revoked
  deriving DecidableEq, Repr

def AdmissionStatus.read : Json → Option AdmissionStatus :=
  Json.variant [("admitted", admitted), ("suspended", suspended), ("revoked", revoked)]

def AdmissionStatus.token : AdmissionStatus → String
  | admitted => "admitted"
  | suspended => "suspended"
  | revoked => "revoked"

/-- The state an admission authority holds for one workload. -/
structure AuthoritativeAdmission where
  admissionId : Str
  generation : Nat
  status : AdmissionStatus
  deriving DecidableEq, Repr

/-- The verifier-local budget of `admission_policy.rs`. -/
structure AdmissionPolicy where
  maxAssertionAge : I64
  maxClockSkew : I64
  degradedPropagationBound : I64
  allowDegradedMode : Bool
  deriving DecidableEq, Repr

/-! ## The assertion -/

structure AdmissionHeader where
  typ : Str
  alg : Str
  kid : Str
  deriving DecidableEq, Repr

def AdmissionHeader.read (j : Json) : Option AdmissionHeader := do
  let m ← j.members [.need "typ", .need "alg", .need "kid"]
  some {
    typ := ← Json.needed Json.asStr (m "typ")
    alg := ← Json.needed Json.asStr (m "alg")
    kid := ← Json.needed Json.asStr (m "kid") }

structure AdmissionClaims where
  iss : Str
  iat : I64
  nbf : I64
  exp : I64
  jti : Str
  aud : Audience
  mcpReProfile : Str
  mcpReAdmissionId : Str
  mcpReAdmittedActor : Str
  mcpReAdmissionGeneration : Nat
  mcpReAdmittedStateDigest : Str
  mcpReAdmissionStatus : AdmissionStatus
  issuerKid : Str
  deriving DecidableEq, Repr

def AdmissionClaims.read (j : Json) : Option AdmissionClaims := do
  let m ← j.members [.need "iss", .need "iat", .need "nbf", .need "exp", .need "jti", .need "aud",
    .need "mcp_re_profile", .need "mcp_re_admission_id", .need "mcp_re_admitted_actor",
    .need "mcp_re_admission_generation", .need "mcp_re_admitted_state_digest",
    .need "mcp_re_admission_status", .need "issuer_kid"]
  some {
    iss := ← Json.needed Json.asStr (m "iss")
    iat := ← Json.needed Json.asI64 (m "iat")
    nbf := ← Json.needed Json.asI64 (m "nbf")
    exp := ← Json.needed Json.asI64 (m "exp")
    jti := ← Json.needed Json.asStr (m "jti")
    aud := ← Json.needed Audience.read (m "aud")
    mcpReProfile := ← Json.needed Json.asStr (m "mcp_re_profile")
    mcpReAdmissionId := ← Json.needed Json.asStr (m "mcp_re_admission_id")
    mcpReAdmittedActor := ← Json.needed Json.asStr (m "mcp_re_admitted_actor")
    mcpReAdmissionGeneration := ← Json.needed Json.asU64 (m "mcp_re_admission_generation")
    mcpReAdmittedStateDigest := ← Json.needed Json.asStr (m "mcp_re_admitted_state_digest")
    mcpReAdmissionStatus := ← Json.needed AdmissionStatus.read (m "mcp_re_admission_status")
    issuerKid := ← Json.needed Json.asStr (m "issuer_kid") }

def AdmissionHeader.toValue (h : AdmissionHeader) : Json :=
  .object [field "typ" (.string h.typ), field "alg" (.string h.alg), field "kid" (.string h.kid)]

def audienceValue : Audience → Json
  | .one who => .string who
  | .many whos => .array (whos.map Json.string)

def AdmissionClaims.toValue (c : AdmissionClaims) : Json :=
  .object [field "iss" (.string c.iss), field "iat" (ofI64 c.iat),
    field "nbf" (ofI64 c.nbf), field "exp" (ofI64 c.exp), field "jti" (.string c.jti),
    field "aud" (audienceValue c.aud),
    field "mcp_re_profile" (.string c.mcpReProfile),
    field "mcp_re_admission_id" (.string c.mcpReAdmissionId),
    field "mcp_re_admitted_actor" (.string c.mcpReAdmittedActor),
    field "mcp_re_admission_generation" (ofU64 c.mcpReAdmissionGeneration),
    field "mcp_re_admitted_state_digest" (.string c.mcpReAdmittedStateDigest),
    field "mcp_re_admission_status" (.string c.mcpReAdmissionStatus.token.toList),
    field "issuer_kid" (.string c.issuerKid)]

/-- What the authority signs over an assertion. -/
def assertionSigningInput (sd : Serde) (claims : AdmissionClaims) : Verdict Str := do
  let header : AdmissionHeader := {
    typ := admissionTyp.toList
    alg := admissionAlg.toList
    kid := claims.issuerKid }
  let h ← okOr (sd.toVec header.toValue) (malformed "admission header")
  let p ← okOr (sd.toVec claims.toValue) (malformed "admission claims")
  .ok (b64urlEncode h ++ '.' :: b64urlEncode p)

def issueAdmissionAssertion (sd : Serde) (claims : AdmissionClaims)
    (signRoot : Bytes → Verdict Bytes) : Verdict Str := do
  let signingInput ← assertionSigningInput sd claims
  let sig ← signRoot (utf8 signingInput)
  .ok (signingInput ++ '.' :: b64urlEncode sig)

def splitCompact (jws : Str) : Verdict (Str × Str × Str) :=
  match jws.splitOn '.' with
  | [h, p, s] =>
    if !h.isEmpty && !p.isEmpty && !s.isEmpty then .ok (h, p, s)
    else .error (malformed "admission jws shape")
  | _ => .error (malformed "admission jws shape")

def decodeSegment {α : Type} (P : Platform) (read : Json → Option α) (segment : Str) :
    Verdict α := do
  let bytes ← okOr (b64urlDecode segment) (malformed "admission b64url")
  okOr ((P.readDocument bytes).bind read) (malformed "admission json")

/-- The signature segment, decoded and encoded again. -/
def sSegToB64url (segment : Str) : Verdict Str := do
  let bytes ← okOr (b64urlDecode segment) .admissionAssertionInvalid
  .ok (b64urlEncode bytes)

/-- Inside `[nbf, exp]` up to the skew, and no older than the budget. -/
def AdmissionClaims.checkFreshness (claims : AdmissionClaims) (policy : AdmissionPolicy)
    (now : I64) : Verdict Unit := do
  let skew := policy.maxClockSkew
  ensure (!(decide (now < claims.nbf.saturatingSub skew)
      || decide (claims.exp.saturatingAdd skew ≤ now) || decide (claims.exp ≤ claims.nbf)))
    .admissionAssertionExpired
  ensure (!(decide (policy.maxAssertionAge.saturatingAdd skew < now.saturatingSub claims.iat)
      || decide (now.saturatingAdd skew < claims.iat)))
    .admissionAssertionExpired

def verifyAdmissionAssertion (P : Platform) (compactJws expectedProfile : Str)
    (verifierAudiences : List Str) (policy : AdmissionPolicy) (now : I64)
    (resolveIssuer : Str → Option VerificationKey) : Verdict AdmissionClaims := do
  let segments ← splitCompact compactJws
  let header ← decodeSegment P AdmissionHeader.read segments.1
  ensure (header.typ == admissionTyp.toList && header.alg == admissionAlg.toList)
    .admissionAssertionInvalid
  let claims ← decodeSegment P AdmissionClaims.read segments.2.1
  ensure (header.kid == claims.issuerKid) .admissionAssertionInvalid
  let root ← okOr (resolveIssuer claims.issuerKid) .admissionIssuerUntrusted
  let signingInput := segments.1 ++ '.' :: segments.2.1
  let signature ← sSegToB64url segments.2.2
  ensure (verifyEd25519With P (utf8 signingInput) signature root) .admissionAssertionInvalid
  ensure (claims.mcpReProfile == expectedProfile) .admissionAssertionInvalid
  ensure (verifierAudiences.any fun a => claims.aud.contains a) .admissionAssertionInvalid
  claims.checkFreshness policy now
  .ok claims

/-! ## The check -/

/-- `AdmissionBinding::matches_state`. -/
def matchesState (P : Platform) (binding : AdmissionBinding) (admittedStateDigest : Str) : Bool :=
  binding.bindingType == .opaqueDigest && binding.digestAlg == evidenceDigestAlg.toList
    && binding.digestValue == b64urlEncode (P.sha256 (utf8 admittedStateDigest)).bytes

structure VerifiedAdmission where
  admissionId : Str
  generation : Nat
  admittedActor : Str
  status : AdmissionStatus
  deriving DecidableEq, Repr

inductive AdmissionVerdict where
  | live (v : VerifiedAdmission)
  | degradedCandidate (v : VerifiedAdmission)
  deriving DecidableEq, Repr

/-- The comparison with the authoritative state: about this workload, of this generation, and
admitted. -/
def currency (binding : AdmissionBinding) (state : AuthoritativeAdmission) : Verdict Unit := do
  ensure (state.admissionId == binding.admissionId) .admissionStateUnavailable
  ensure (binding.generation == state.generation) .admissionNotCurrent
  ensure (state.status == .admitted) .admissionNotCurrent

/-- The fork without an authoritative state. -/
def degradedFork (policy : AdmissionPolicy) (now iat : I64) : Verdict Unit := do
  ensure policy.allowDegradedMode .admissionStateUnavailable
  ensure (!decide (policy.degradedPropagationBound.saturatingAdd policy.maxClockSkew
      < now.saturatingSub iat))
    .admissionStateUnavailable

def checkAdmission (P : Platform) (binding : AdmissionBinding)
    (assertionJws presenterActorId : Str) (authoritative : Option AuthoritativeAdmission)
    (expectedProfile : Str) (verifierAudiences : List Str) (policy : AdmissionPolicy) (now : I64)
    (resolveIssuer : Str → Option VerificationKey) : Verdict AdmissionVerdict := do
  let claims ← verifyAdmissionAssertion P assertionJws expectedProfile verifierAudiences policy now
    resolveIssuer
  ensure (claims.mcpReAdmittedActor == presenterActorId) .admissionBindingMismatch
  ensure (binding.admissionId == claims.mcpReAdmissionId
      && binding.generation == claims.mcpReAdmissionGeneration
      && matchesState P binding claims.mcpReAdmittedStateDigest)
    .admissionBindingMismatch
  ensure (claims.mcpReAdmissionStatus == .admitted) .admissionNotCurrent
  let verified : VerifiedAdmission := {
    admissionId := claims.mcpReAdmissionId
    generation := claims.mcpReAdmissionGeneration
    admittedActor := claims.mcpReAdmittedActor
    status := .admitted }
  match authoritative with
  | some state => do
    currency binding state
    .ok (.live verified)
  | none => do
    degradedFork policy now claims.iat
    .ok (.degradedCandidate verified)

end McpRe.Admission
