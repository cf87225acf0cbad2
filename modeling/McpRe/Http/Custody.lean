import McpRe.Http.BoundResponse
import McpRe.Http.Body

/-!
# Delegated-signing custody

The state machine that keeps a server in response-signing keys (`custody/`). The root key is asked
for a credential over a fresh key when none is in service or the one in service is about to expire,
and the responses are signed with the key in service. The root issuer and the key factory are
injected: each call asks each of them at most once, so a call takes their answers as an argument.
-/

namespace McpRe.Http

open Lib Lib.Result Lib.Text

/-! ## The key window (`key_window.rs`) -/

inductive KeyWindowError where
  | nonPositiveOverlap
  | overlapNotInsideTtl
  deriving DecidableEq, Repr

/-- The life `T` of a credential and the rotation overlap `O`. -/
structure DelegatedKeyWindow where
  ttl : I64
  overlap : I64
  overlap_pos : 0 < overlap.val
  overlap_lt_ttl : overlap.val < ttl.val

def DelegatedKeyWindow.of (ttl overlap : I64) : Except KeyWindowError DelegatedKeyWindow :=
  if hpos : 0 < overlap.val then
    if hlt : overlap.val < ttl.val then .ok ⟨ttl, overlap, hpos, hlt⟩
    else .error .overlapNotInsideTtl
  else .error .nonPositiveOverlap

/-! ## Issuance terms (`issuance_terms.rs`) -/

inductive CustodyError where
  | failClosedIssuance
  | sign (e : HttpProfileError)
  deriving DecidableEq, Repr

def issuanceAttemptsPerOverlap : Int := 10

def minIssuanceRetrySecs : I64 := 1

/-- A threshold that does not fit counts as reached. -/
def rotationDue (exp overlap now : I64) : Bool :=
  match I64.ofInt? (exp.val - overlap.val) with
  | none => true
  | some due => decide (due ≤ now)

def checkedIncrement (counter : UInt64) : Option UInt64 :=
  if counter.toNat + 1 < 2 ^ 64 then some (counter + 1) else none

def saturatingIncrement (counter : UInt64) : UInt64 := (checkedIncrement counter).getD counter

/-- The expiry and the ordinal of a credential issued now. -/
def mintable (now ttl : I64) (counter : UInt64) : Except CustodyError (I64 × UInt64) :=
  match I64.ofInt? (now.val + ttl.val), checkedIncrement counter with
  | some exp, some next => .ok (exp, next)
  | _, _ => .error .failClosedIssuance

def signatureValidUntil (now ttl exp : I64) : I64 :=
  match I64.ofInt? (now.val + ttl.val) with
  | none => exp
  | some bound => min bound exp

def retryInterval (overlap : I64) : I64 :=
  max (I64.clamp (overlap.val.tdiv issuanceAttemptsPerOverlap)) minIssuanceRetrySecs

def nextAttemptAfter (now overlap : I64) : I64 := now.saturatingAdd (retryInterval overlap)

/-! ## Keys -/

/-- A delegated signing key with its public half. -/
structure DelegatedSigningKey extends SigningKey where
  publicKey : VerificationKey

/-- `canonical_ed25519_jwk` of a public key in base64url. -/
def canonicalEd25519Jwk (x : Str) : Str :=
  "\x7b\"crv\":\"".toList ++ jwkCrvEd25519.toList ++ "\",\"kty\":\"".toList ++ jwkKtyOkp.toList
    ++ "\",\"x\":\"".toList ++ x ++ "\"\x7d".toList

/-- `jwk_thumbprint_ed25519`. -/
def jwkThumbprintEd25519 (P : Platform) (x : Str) : Str :=
  b64urlEncode (P.sha256 (utf8 (canonicalEd25519Jwk x))).bytes

/-- What an issuance asks the root to attest. -/
structure IssuanceRequest where
  signer : ActorIdentity
  header : DelegationHeader
  claims : DelegationClaims

/-- `ActiveDelegatedKey`: `issued` is its only producer, so what it checks holds of every one. -/
structure ActiveDelegatedKey (P : Platform) where
  key : DelegatedSigningKey
  serverSigner : ActorIdentity
  credential : Str
  header : DelegationHeader
  claims : DelegationClaims
  parsed : parseCredential P credential = .ok (header, claims)
  held : claims.delegatedKey P = .ok key.publicKey
  signer : claims.mcpReServerSigner = serverSigner.actorId
  keyid : serverSigner.keyid = claims.delegatedKid
  window : claims.nbf < claims.exp

namespace ActiveDelegatedKey

variable {P : Platform} (a : ActiveDelegatedKey P)

/-! The four fields read out of the credential. -/

def delegatedKid : Str := a.claims.delegatedKid

def jti : Str := a.claims.jti

def nbf : I64 := a.claims.nbf

def exp : I64 := a.claims.exp

end ActiveDelegatedKey

/-- `ActiveDelegatedKey::issued`: the credential, if it attests this issuance. -/
def issued (P : Platform) (key : DelegatedSigningKey) (requested : IssuanceRequest)
    (credential : Str) : Verdict (ActiveDelegatedKey P) :=
  match hparsed : parseCredential P credential with
  | .error e => .error e
  | .ok (header, claims) =>
    match hkey : claims.delegatedKey P with
    | .error e => .error e
    | .ok attested =>
      if hheld : attested = key.publicKey then
        if hsigner : claims.mcpReServerSigner = requested.signer.actorId
            ∧ requested.signer.keyid = claims.delegatedKid then
          let asRequested := { requested.claims with
            iat := claims.iat, nbf := claims.nbf, exp := claims.exp }
          if header = requested.header ∧ claims = asRequested then
            if hwindow : claims.nbf < claims.exp then
              .ok {
                key, serverSigner := requested.signer, credential, header, claims
                parsed := hparsed
                held := hkey.trans (congrArg _ hheld)
                signer := hsigner.1
                keyid := hsigner.2
                window := hwindow }
            else .error .delegationCredentialInvalid
          else .error .delegationCredentialInvalid
        else .error .delegationCredentialInvalid
      else .error .delegationCredentialInvalid

/-! ## The machine -/

structure CustodyConfig where
  issuerKid : Str
  iss : Str
  profile : Str
  aud : Str
  audienceHash : Str
  trustEpoch : Str
  serverRole : Str
  serverTrustDomain : Str
  serverSubject : Str
  window : DelegatedKeyWindow

/-- The lifecycle tokens of the audit vocabulary. -/
inductive KeyEvent where
  | issued
  | rotated
  | retired
  deriving DecidableEq, Repr

structure KeyLifecycleEvent where
  eventType : KeyEvent
  delegatedKid : Str
  issuerKid : Str
  nbf : I64
  exp : I64
  jti : Str
  now : I64
  deriving DecidableEq, Repr

/-- What the injected closures answer during one call. -/
structure Root where
  /-- The key the factory hands out. -/
  fresh : DelegatedSigningKey
  /-- The root issuer: the credential, or `none` when it declines. -/
  issue : DelegationHeader → DelegationClaims → Option Str

structure DelegatedSigningCustody (P : Platform) where
  cfg : CustodyConfig
  active : Option (ActiveDelegatedKey P)
  audit : List KeyLifecycleEvent
  rootInvocations : UInt64
  counter : UInt64
  /-- The earliest instant at which a scheduled issuance may approach the root again. -/
  nextAttemptAt : Option I64

namespace DelegatedSigningCustody

variable {P : Platform}

def new (cfg : CustodyConfig) : DelegatedSigningCustody P where
  cfg
  active := none
  audit := []
  rootInvocations := 0
  counter := 0
  nextAttemptAt := none

variable (c : DelegatedSigningCustody P) (root : Root) (now : I64)

def setTrustEpoch (epoch : Str) : DelegatedSigningCustody P :=
  { c with cfg := { c.cfg with trustEpoch := epoch } }

def event (eventType : KeyEvent) (a : ActiveDelegatedKey P) : KeyLifecycleEvent where
  eventType
  delegatedKid := a.delegatedKid
  issuerKid := c.cfg.issuerKid
  nbf := a.nbf
  exp := a.exp
  jti := a.jti
  now

def retired (a : ActiveDelegatedKey P) : KeyLifecycleEvent := c.event now .retired a

/-- Is a key in service that has not expired? -/
def serves : Bool := c.active.any fun a => decide (now < a.exp)

def attemptAllowed : Bool := c.nextAttemptAt.all fun next => decide (next ≤ now)

/-- `build`: what the issuance asks the root to attest. -/
def build (exp : I64) (key : DelegatedSigningKey) : IssuanceRequest :=
  let x := b64urlEncode key.publicKey.bytes
  let delegatedKid := jwkThumbprintEd25519 P x
  let signer : ActorIdentity := {
    role := c.cfg.serverRole
    trustDomain := c.cfg.serverTrustDomain
    subject := c.cfg.serverSubject
    keyid := delegatedKid }
  { signer
    header := { typ := delegationTyp.toList, alg := delegationAlg.toList, kid := c.cfg.issuerKid }
    claims := {
      iss := c.cfg.iss
      iat := now
      nbf := now
      exp
      jti := c.cfg.issuerKid ++ '#' :: delegatedKid ++ '#' :: Nat.toDigits 10 c.counter.toNat
      aud := .one c.cfg.aud
      mcpReProfile := c.cfg.profile
      mcpReAudienceHash := c.cfg.audienceHash
      mcpReServerSigner := signer.actorId
      mcpReKeyUse := keyUseResponseSigning.toList
      delegatedKid
      issuerKid := c.cfg.issuerKid
      trustEpoch := c.cfg.trustEpoch
      cnf := ⟨{ kty := jwkKtyOkp.toList, crv := jwkCrvEd25519.toList, kid := delegatedKid, x }⟩ } }

def adopt (a : ActiveDelegatedKey P) (isRotation : Bool) : DelegatedSigningCustody P :=
  { c with
    nextAttemptAt := none
    audit := c.audit ++ [c.event now (if isRotation then .rotated else .issued) a]
    active := some a }

/-- `hold_off`: nothing publishable came back. -/
def holdOff : Except CustodyError Unit × DelegatedSigningCustody P :=
  let c := { c with nextAttemptAt := some (nextAttemptAfter now c.cfg.window.overlap) }
  if c.serves now then (.ok (), c)
  else
    match c.active with
    | some a =>
      (.error .failClosedIssuance, { c with active := none, audit := c.audit ++ [c.retired now a] })
    | none => (.error .failClosedIssuance, c)

/-- The root's answer, taken as the key it attests. -/
def granted (exp : I64) : Option (ActiveDelegatedKey P) :=
  let requested := c.build now exp root.fresh
  (root.issue requested.header requested.claims).bind fun credential =>
    (issued P root.fresh requested credential).toOption

/-- One ordinal spent and one invocation counted. -/
def charged (nextCounter : UInt64) : DelegatedSigningCustody P :=
  { c with counter := nextCounter, rootInvocations := saturatingIncrement c.rootInvocations }

/-- `attempt_issuance`: one approach to the root. -/
def attemptIssuance : Except CustodyError Unit × DelegatedSigningCustody P :=
  let isRotation := c.serves now
  match mintable now c.cfg.window.ttl c.counter with
  | .error e => (.error e, c)
  | .ok (exp, nextCounter) =>
    let c := c.charged nextCounter
    match c.granted root now exp with
    | some a => (.ok (), c.adopt now a isRotation)
    | none => c.holdOff now

def issueIf (needs : Bool) : Except CustodyError Unit × DelegatedSigningCustody P :=
  let settle (c : DelegatedSigningCustody P) : Except CustodyError Unit × DelegatedSigningCustody P :=
    (if c.serves now then .ok () else .error .failClosedIssuance, c)
  if needs && c.attemptAllowed now then
    match c.attemptIssuance root now with
    | (.error e, c) => (.error e, c)
    | (.ok (), c) => settle c
  else settle c

/-- Is a successor wanted? -/
def needsIssuance : Bool :=
  match c.active with
  | none => true
  | some a => rotationDue a.exp c.cfg.window.overlap now

def ensureActive : Except CustodyError Unit × DelegatedSigningCustody P :=
  c.issueIf root now (c.needsIssuance now)

def issueNow : Except CustodyError Unit × DelegatedSigningCustody P :=
  issueIf { c with nextAttemptAt := none } root now true

def reissue :
    Except CustodyError (Option (ActiveDelegatedKey P)) × DelegatedSigningCustody P :=
  let previous := c.active
  match c.issueNow root now with
  | (.error e, c) => (.error e, c)
  | (.ok (), c) =>
    let successor := c.active.filter fun a => previous.all fun p => p.credential != a.credential
    match successor, previous with
    | some _, some p => (.ok successor, { c with audit := c.audit ++ [c.retired now p] })
    | _, _ => (.ok successor, c)

end DelegatedSigningCustody

/-! ## Signing -/

/-- The block as `serde_json` turns it into a value: members in the order of their names, an absent
credential left out. -/
def HttpResponseEvidenceBlock.toValue (block : HttpResponseEvidenceBlock) : Json :=
  .object ([("profile".toList, Json.string block.profile),
    ("request_evidence".toList, .object [
      ("digest_alg".toList, .string block.requestEvidence.digestAlg),
      ("digest_value".toList, .string block.requestEvidence.digestValue)])]
    ++ (block.serverDelegation.map fun jws => ("server_delegation".toList, Json.string jws)).toList
    ++ [("server_signer".toList, Json.object [
      ("keyid".toList, .string block.serverSigner.keyid),
      ("role".toList, .string block.serverSigner.role),
      ("subject".toList, .string block.serverSigner.subject),
      ("trust_domain".toList, .string block.serverSigner.trustDomain)])])

/-- `sign_delegated_response_full`: the signed response and the base that was signed. -/
def signDelegatedResponseFull (P : Platform) (sd : Serde) (response : HttpResponse)
    (request : HttpRequest) (requestEvidence : RequestEvidence) (serverSigner : ActorIdentity)
    (serverDelegation : Str) (delegatedKey : SigningKey) (delegatedKid : Str)
    (created expires : I64) : Verdict (HttpResponse × Bytes) := do
  let block : HttpResponseEvidenceBlock := {
    profile := profileTag.toList
    serverSigner
    serverDelegation := some serverDelegation
    requestEvidence }
  let body ← insertMetaBlock P sd response.body responseEvidenceBlockKey block.toValue
  signResponseWithSigner P { response with body } request (localSig delegatedKey) delegatedKid
    created expires

/-- `sign_response`: the signed response, and the machine after it. -/
def DelegatedSigningCustody.signResponse {P : Platform} (c : DelegatedSigningCustody P) (sd : Serde)
    (root : Root) (now : I64) (response : HttpResponse) (request : HttpRequest)
    (requestEvidence : RequestEvidence) :
    Except CustodyError HttpResponse × DelegatedSigningCustody P :=
  match c.ensureActive root now with
  | (.error e, c) => (.error e, c)
  | (.ok (), c) =>
    match c.active with
    | none => (.error .failClosedIssuance, c)
    | some a =>
      let signed := signDelegatedResponseFull P sd response request requestEvidence a.serverSigner
        a.credential a.key.toSigningKey a.delegatedKid now
        (signatureValidUntil now c.cfg.window.ttl a.exp)
      ((signed.map Prod.fst).mapError .sign, c)

end McpRe.Http
