import McpRe.Http.Block

/-!
# Delegation credentials

A server signs its responses with a short-lived key, and a credential signed by a root key says
which (`delegation/`). The credential is a compact JWS. A verifier splits and decodes it
(`parse.rs`), then checks the root's signature, the window, the scope and the trust epoch
(`verify.rs`).
-/

namespace McpRe.Http

open Lib Lib.Result Lib.Text

def delegationTyp : String := "mcp-re-delegation+jwt"

def delegationAlg : String := "EdDSA"

def keyUseResponseSigning : String := "response-signing"

def jwkKtyOkp : String := "OKP"

def jwkCrvEd25519 : String := "Ed25519"

/-! ## The credential -/

structure DelegationHeader where
  typ : Str
  alg : Str
  kid : Str
  deriving DecidableEq, Repr

def DelegationHeader.read (j : Json) : Option DelegationHeader := do
  let m ← j.members [.need "typ", .need "alg", .need "kid"]
  some {
    typ := ← Json.needed Json.asStr (m "typ")
    alg := ← Json.needed Json.asStr (m "alg")
    kid := ← Json.needed Json.asStr (m "kid") }

structure DelegatedJwk where
  kty : Str
  crv : Str
  kid : Str
  x : Str
  deriving DecidableEq, Repr

def DelegatedJwk.read (j : Json) : Option DelegatedJwk := do
  let m ← j.members [.need "kty", .need "crv", .need "kid", .need "x"]
  some {
    kty := ← Json.needed Json.asStr (m "kty")
    crv := ← Json.needed Json.asStr (m "crv")
    kid := ← Json.needed Json.asStr (m "kid")
    x := ← Json.needed Json.asStr (m "x") }

structure Cnf where
  jwk : DelegatedJwk
  deriving DecidableEq, Repr

def Cnf.read (j : Json) : Option Cnf := do
  let m ← j.members [.need "jwk"]
  some { jwk := ← Json.needed DelegatedJwk.read (m "jwk") }

inductive Audience where
  | one (who : Str)
  | many (whos : List Str)
  deriving DecidableEq, Repr

/-- The variants are untagged: the first that fits. -/
def Audience.read (j : Json) : Option Audience :=
  (j.asStr.map one).or ((Json.vec Json.asStr j).map many)

def Audience.contains (who : Str) : Audience → Bool
  | one a => a == who
  | many v => v.any fun a => a == who

structure DelegationClaims where
  iss : Str
  iat : I64
  nbf : I64
  exp : I64
  jti : Str
  aud : Audience
  mcpReProfile : Str
  mcpReAudienceHash : Str
  mcpReServerSigner : Str
  mcpReKeyUse : Str
  delegatedKid : Str
  issuerKid : Str
  trustEpoch : Str
  cnf : Cnf
  deriving DecidableEq, Repr

def DelegationClaims.read (j : Json) : Option DelegationClaims := do
  let m ← j.members [.need "iss", .need "iat", .need "nbf", .need "exp", .need "jti", .need "aud",
    .need "mcp_re_profile", .need "mcp_re_audience_hash", .need "mcp_re_server_signer",
    .need "mcp_re_key_use", .need "delegated_kid", .need "issuer_kid", .need "trust_epoch",
    .need "cnf"]
  some {
    iss := ← Json.needed Json.asStr (m "iss")
    iat := ← Json.needed Json.asI64 (m "iat")
    nbf := ← Json.needed Json.asI64 (m "nbf")
    exp := ← Json.needed Json.asI64 (m "exp")
    jti := ← Json.needed Json.asStr (m "jti")
    aud := ← Json.needed Audience.read (m "aud")
    mcpReProfile := ← Json.needed Json.asStr (m "mcp_re_profile")
    mcpReAudienceHash := ← Json.needed Json.asStr (m "mcp_re_audience_hash")
    mcpReServerSigner := ← Json.needed Json.asStr (m "mcp_re_server_signer")
    mcpReKeyUse := ← Json.needed Json.asStr (m "mcp_re_key_use")
    delegatedKid := ← Json.needed Json.asStr (m "delegated_kid")
    issuerKid := ← Json.needed Json.asStr (m "issuer_kid")
    trustEpoch := ← Json.needed Json.asStr (m "trust_epoch")
    cnf := ← Json.needed Cnf.read (m "cnf") }

/-! ## Decoding -/

def splitCompactJws (jws : Str) : Verdict (Str × Str × Str) :=
  match jws.splitOn '.' with
  | [h, p, s] =>
    if !h.isEmpty && !p.isEmpty && !s.isEmpty then .ok (h, p, s)
    else .error .delegationCredentialInvalid
  | _ => .error .delegationCredentialInvalid

def decodeJson {α : Type} (P : Platform) (read : Json → Option α) (segment : Str) : Verdict α :=
  okOr (((b64urlDecode segment).bind P.readDocument).bind read) .delegationCredentialInvalid

def VerificationKey.fromB64url (P : Platform) (s : Str) : Option VerificationKey := do
  let bytes ← b64urlDecode s
  if bytes.length = 32 ∧ P.isPoint bytes = true then some ⟨bytes⟩ else none

/-! ## Verification -/

structure DelegationVerifyParams where
  now : I64
  maxClockSkew : I64
  verifierAudiences : List Str
  expectedProfile : Str
  expectedAudienceHash : Str
  expectedServerSigner : Str
  acceptedEpochs : List Str

structure VerifiedDelegation where
  delegatedKey : VerificationKey
  delegatedKid : Str
  serverSigner : Str
  issuerKid : Str
  nbf : I64
  exp : I64
  trustEpoch : Str
  deriving DecidableEq, Repr

def boundedSkew (configured : I64) : Int := max 0 (min configured.val maxClockSkewBound)

def checkRootSignature (P : Platform) (segments : Str × Str × Str) (header : DelegationHeader)
    (claims : DelegationClaims) (resolveRoot : Str → Option VerificationKey) : Verdict Unit := do
  ensure (header.typ == delegationTyp.toList && header.alg == delegationAlg.toList)
    .delegationCredentialInvalid
  ensure (header.kid == claims.issuerKid) .delegationCredentialInvalid
  let rootKey ← okOr (resolveRoot claims.issuerKid) .delegationIssuerUntrusted
  let signingInput := segments.1 ++ '.' :: segments.2.1
  ensure (verifyEd25519With P (utf8 signingInput) segments.2.2 rootKey) .delegationCredentialInvalid

namespace DelegationClaims

variable (claims : DelegationClaims) (params : DelegationVerifyParams)

/-- A clock so close to the ends of `i64` that the skew does not fit counts as expired. -/
def checkFreshness : Verdict Unit := do
  let skew := boundedSkew params.maxClockSkew
  let earliest ← okOr (I64.ofInt? (params.now.val + skew)) .delegationCredentialExpired
  let latest ← okOr (I64.ofInt? (params.now.val - skew)) .delegationCredentialExpired
  ensure (!(decide (earliest < claims.nbf) || decide (claims.exp < latest)))
    .delegationCredentialExpired

def checkScope : Verdict Unit := do
  ensure (params.verifierAudiences.any fun a => claims.aud.contains a) .delegationAudienceMismatch
  ensure (claims.mcpReProfile == params.expectedProfile) .delegationProfileMismatch
  ensure (claims.mcpReAudienceHash == params.expectedAudienceHash
    && claims.mcpReServerSigner == params.expectedServerSigner) .delegationAudienceMismatch
  ensure (claims.mcpReKeyUse == keyUseResponseSigning.toList) .delegationKeyUseInvalid

def checkEpochAndRevocation (isRevoked : Str → Bool) : Verdict Unit := do
  ensure (params.acceptedEpochs.any fun e => e == claims.trustEpoch) .delegationTrustEpochStale
  ensure (!(isRevoked claims.delegatedKid || isRevoked claims.issuerKid || isRevoked claims.jti))
    .delegationRevoked

def delegatedKey (P : Platform) : Verdict VerificationKey := do
  let jwk := claims.cnf.jwk
  ensure (jwk.kty == jwkKtyOkp.toList && jwk.crv == jwkCrvEd25519.toList
    && jwk.kid == claims.delegatedKid) .delegationCredentialInvalid
  okOr (VerificationKey.fromB64url P jwk.x) .delegationCredentialInvalid

end DelegationClaims

def verifyDelegationCredential (P : Platform) (compactJws : Str) (params : DelegationVerifyParams)
    (resolveRoot : Str → Option VerificationKey) (isRevoked : Str → Bool) :
    Verdict VerifiedDelegation := do
  let segments ← splitCompactJws compactJws
  let header ← decodeJson P DelegationHeader.read segments.1
  let claims ← decodeJson P DelegationClaims.read segments.2.1
  checkRootSignature P segments header claims resolveRoot
  claims.checkFreshness params
  claims.checkScope params
  claims.checkEpochAndRevocation params isRevoked
  let delegatedKey ← claims.delegatedKey P
  .ok {
    delegatedKey
    delegatedKid := claims.delegatedKid
    serverSigner := claims.mcpReServerSigner
    issuerKid := claims.issuerKid
    nbf := claims.nbf
    exp := claims.exp
    trustEpoch := claims.trustEpoch }

end McpRe.Http
