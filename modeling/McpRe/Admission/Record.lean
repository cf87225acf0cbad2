import McpRe.Admission.Check

/-!
# Authoritative admission records

What the admission authority currently holds for a workload, as a signed record that is kept in a
store others can write to (`authoritative_admission/record/`), and the verifier that decides what
such bytes are worth (`admission_source/verifier.rs`).
-/

namespace McpRe.Admission

open Lib Lib.Result Lib.Text Http
open Http.Json (field ofU64 ofI64)

def admissionStateTyp : String := "mcp-re-admission-state+jws"

def admissionStateAlg : String := "EdDSA"

structure AdmissionStateHeader where
  typ : Str
  alg : Str
  kid : Str
  deriving DecidableEq, Repr

def AdmissionStateHeader.read (j : Json) : Option AdmissionStateHeader := do
  let m ← j.members [.need "typ", .need "alg", .need "kid"]
  some {
    typ := ← Json.needed Json.asStr (m "typ")
    alg := ← Json.needed Json.asStr (m "alg")
    kid := ← Json.needed Json.asStr (m "kid") }

structure AdmissionStateClaims where
  iss : Str
  iat : I64
  nbf : I64
  exp : I64
  mcpReProfile : Str
  mcpReAdmissionId : Str
  mcpReAdmissionGeneration : Nat
  mcpReAdmissionStatus : AdmissionStatus
  mcpReStateRevision : Nat
  issuerKid : Str
  deriving DecidableEq, Repr

def AdmissionStateClaims.read (j : Json) : Option AdmissionStateClaims := do
  let m ← j.members [.need "iss", .need "iat", .need "nbf", .need "exp", .need "mcp_re_profile",
    .need "mcp_re_admission_id", .need "mcp_re_admission_generation",
    .need "mcp_re_admission_status", .need "mcp_re_state_revision", .need "issuer_kid"]
  some {
    iss := ← Json.needed Json.asStr (m "iss")
    iat := ← Json.needed Json.asI64 (m "iat")
    nbf := ← Json.needed Json.asI64 (m "nbf")
    exp := ← Json.needed Json.asI64 (m "exp")
    mcpReProfile := ← Json.needed Json.asStr (m "mcp_re_profile")
    mcpReAdmissionId := ← Json.needed Json.asStr (m "mcp_re_admission_id")
    mcpReAdmissionGeneration := ← Json.needed Json.asU64 (m "mcp_re_admission_generation")
    mcpReAdmissionStatus := ← Json.needed AdmissionStatus.read (m "mcp_re_admission_status")
    mcpReStateRevision := ← Json.needed Json.asU64 (m "mcp_re_state_revision")
    issuerKid := ← Json.needed Json.asStr (m "issuer_kid") }

def AdmissionStateHeader.toValue (h : AdmissionStateHeader) : Json :=
  .object [field "typ" (.string h.typ), field "alg" (.string h.alg), field "kid" (.string h.kid)]

def AdmissionStateClaims.toValue (c : AdmissionStateClaims) : Json :=
  .object [field "iss" (.string c.iss), field "iat" (ofI64 c.iat), field "nbf" (ofI64 c.nbf),
    field "exp" (ofI64 c.exp), field "mcp_re_profile" (.string c.mcpReProfile),
    field "mcp_re_admission_id" (.string c.mcpReAdmissionId),
    field "mcp_re_admission_generation" (ofU64 c.mcpReAdmissionGeneration),
    field "mcp_re_admission_status" (.string c.mcpReAdmissionStatus.token.toList),
    field "mcp_re_state_revision" (ofU64 c.mcpReStateRevision),
    field "issuer_kid" (.string c.issuerKid)]

/-- What the authority signs over a record. -/
def recordSigningInput (sd : Serde) (claims : AdmissionStateClaims) : Verdict Str := do
  let header : AdmissionStateHeader := {
    typ := admissionStateTyp.toList
    alg := admissionStateAlg.toList
    kid := claims.issuerKid }
  let h ← okOr (sd.toVec header.toValue) (malformed "admission state header")
  let p ← okOr (sd.toVec claims.toValue) (malformed "admission state claims")
  .ok (b64urlEncode h ++ '.' :: b64urlEncode p)

def issueAdmissionStateRecord (sd : Serde) (claims : AdmissionStateClaims)
    (signRoot : Bytes → Verdict Bytes) : Verdict Str := do
  let signingInput ← recordSigningInput sd claims
  let sig ← signRoot (utf8 signingInput)
  ensure (decide (sig.length = signatureLen)) (malformed "admission state signature length")
  .ok (signingInput ++ '.' :: b64urlEncode sig)

/-! ## Currentness (`currentness.rs`) -/

/-- Why a record in the store is not the authority's current statement. -/
inductive AdmissionRecordRefusal where
  | malformed
  | issuerUntrusted
  | signatureInvalid
  | profileMismatch
  | subjectMismatch
  | expired
  | windowExceedsBudget
  | revisionRewound
  deriving DecidableEq, Repr

structure AdmissionStateCurrentness where
  maxRecordAge : I64
  maxClockSkew : I64
  deriving DecidableEq, Repr

def checkCurrentness (claims : AdmissionStateClaims) (currentness : AdmissionStateCurrentness)
    (now : I64) : Except AdmissionRecordRefusal Unit := do
  let skew := currentness.maxClockSkew
  ensure (!(decide (now < claims.nbf.saturatingSub skew)
      || decide (claims.exp.saturatingAdd skew ≤ now) || decide (claims.exp ≤ claims.nbf)
      || decide (now.saturatingAdd skew < claims.iat)))
    .expired
  ensure (!decide (currentness.maxRecordAge < claims.exp.saturatingSub claims.iat))
    .windowExceedsBudget

/-! ## Verification (`verified.rs`) -/

/-- A state that was authenticated and found current. -/
structure CurrentAdmissionState where
  state : AuthoritativeAdmission
  revision : Nat
  deriving DecidableEq, Repr

def splitRecord (jws : Str) : Except AdmissionRecordRefusal (Str × Str × Str) :=
  match jws.splitOn '.' with
  | [h, p, s] =>
    if !h.isEmpty && !p.isEmpty && !s.isEmpty then .ok (h, p, s) else .error .malformed
  | _ => .error .malformed

def decodeRecord {α : Type} (P : Platform) (read : Json → Option α) (segment : Str) :
    Except AdmissionRecordRefusal α := do
  let bytes ← okOr (b64urlDecode segment) .malformed
  okOr ((P.readDocument bytes).bind read) .malformed

def normalizeSignature (segment : Str) : Except AdmissionRecordRefusal Str := do
  let bytes ← okOr (b64urlDecode segment) .malformed
  .ok (b64urlEncode bytes)

def verifyAdmissionStateRecord (P : Platform) (compactJws expectedAdmissionId expectedProfile : Str)
    (currentness : AdmissionStateCurrentness) (observedRevisionFloor : Option Nat) (now : I64)
    (resolveIssuer : Str → Option VerificationKey) :
    Except AdmissionRecordRefusal CurrentAdmissionState := do
  let segments ← splitRecord compactJws
  let header ← decodeRecord P AdmissionStateHeader.read segments.1
  ensure (header.typ == admissionStateTyp.toList && header.alg == admissionStateAlg.toList)
    .malformed
  let claims ← decodeRecord P AdmissionStateClaims.read segments.2.1
  ensure (header.kid == claims.issuerKid) .malformed
  let authority ← okOr (resolveIssuer claims.issuerKid) .issuerUntrusted
  let signingInput := segments.1 ++ '.' :: segments.2.1
  let signature ← normalizeSignature segments.2.2
  ensure (verifyEd25519With P (utf8 signingInput) signature authority) .signatureInvalid
  ensure (claims.mcpReProfile == expectedProfile) .profileMismatch
  ensure (claims.mcpReAdmissionId == expectedAdmissionId) .subjectMismatch
  checkCurrentness claims currentness now
  ensure (!observedRevisionFloor.any fun floor => decide (claims.mcpReStateRevision < floor))
    .revisionRewound
  .ok {
    state := {
      admissionId := claims.mcpReAdmissionId
      generation := claims.mcpReAdmissionGeneration
      status := claims.mcpReAdmissionStatus }
    revision := claims.mcpReStateRevision }

/-! ## The verifier of a process

`verify` reads the floor under the lock, verifies without it, and takes the lock again to record
what it accepted. Calls of several threads interleave at those two points. The lock is never
poisoned. -/

/-- What a deployment configures. -/
structure AdmissionRecordVerifier where
  resolveAuthority : Str → Option VerificationKey
  profile : Str
  currentness : AdmissionStateCurrentness

/-- The highest revision accepted for each workload, so far. -/
abbrev ObservedRevisions := Str → Option Nat

/-- `record_observed`. -/
def recordObserved (observed : ObservedRevisions) (admissionId : Str) (revision : Nat) :
    ObservedRevisions :=
  Function.update observed admissionId (some (max ((observed admissionId).getD revision) revision))

structure VerifyCall where
  admissionId : Str
  raw : Str
  now : I64
  deriving DecidableEq, Repr

/-- How far a thread's `verify` has come. -/
inductive Verifying where
  | idle
  | begun (call : VerifyCall)
  /-- The record was accepted and is not yet recorded. -/
  | verified (call : VerifyCall) (accepted : CurrentAdmissionState)
  deriving DecidableEq, Repr

structure VerifierState where
  observed : ObservedRevisions
  calls : Nat → Verifying

inductive VerifierAction where
  | begin (thread : Nat) (call : VerifyCall)
  /-- The floor is read and the record verified against it. -/
  | check (thread : Nat)
  /-- The accepted revision is recorded, and the call returns. -/
  | record (thread : Nat)
  deriving DecidableEq, Repr

/-- What a call returned. -/
structure VerifyReturn where
  call : VerifyCall
  result : Except AdmissionRecordRefusal CurrentAdmissionState
  deriving DecidableEq

namespace VerifierState

def new : VerifierState where
  observed := fun _ => none
  calls := fun _ => .idle

def moved (s : VerifierState) (thread : Nat) (call : Verifying) : VerifierState :=
  { s with calls := Function.update s.calls thread call }

/-- The verification of a call against the floor of the moment. -/
def verdict (P : Platform) (V : AdmissionRecordVerifier) (s : VerifierState) (call : VerifyCall) :
    Except AdmissionRecordRefusal CurrentAdmissionState :=
  verifyAdmissionStateRecord P call.raw call.admissionId V.profile V.currentness
    (s.observed call.admissionId) call.now V.resolveAuthority

def step (P : Platform) (V : AdmissionRecordVerifier) (s : VerifierState) :
    VerifierAction → Option VerifyReturn × VerifierState
  | .begin thread call =>
    match s.calls thread with
    | .idle => (none, s.moved thread (.begun call))
    | _ => (none, s)
  | .check thread =>
    match s.calls thread with
    | .begun call =>
      match s.verdict P V call with
      | .ok accepted => (none, s.moved thread (.verified call accepted))
      | .error refusal => (some ⟨call, .error refusal⟩, s.moved thread .idle)
    | _ => (none, s)
  | .record thread =>
    match s.calls thread with
    | .verified call accepted =>
      (some ⟨call, .ok accepted⟩,
        { s.moved thread .idle with
          observed := recordObserved s.observed call.admissionId accepted.revision })
    | _ => (none, s)

end VerifierState

end McpRe.Admission
