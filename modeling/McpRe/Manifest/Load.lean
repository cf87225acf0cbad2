import McpRe.Http.Body
import McpRe.Http.Chain
import McpRe.Http.Delegation
import McpRe.Lib.Table

/-!
# The signed trust-anchor manifest

An organisation signs which root issuers are trusted, retiring or revoked
(`trust_manifest/mod.rs`, `trust_manifest/preimage.rs`). `loadSignedManifest` verifies such a
document against a version floor and turns it into the anchors to verify against
(`delegated_trust/anchors.rs`).
-/

namespace McpRe.Manifest

open Lib Lib.Result Lib.Text Http
open Http.Json (field ofU64 ofI64)

/-! ## The document -/

structure ManifestIssuer where
  issuerKid : Str
  publicKey : Str
  role : Str
  trustDomain : Str
  subject : Str
  deriving DecidableEq, Repr

structure RetiringIssuer where
  issuerKid : Str
  publicKey : Str
  role : Str
  trustDomain : Str
  subject : Str
  validUntil : I64
  deriving DecidableEq, Repr

structure TrustAnchorManifest where
  profile : Str
  manifestVersion : Nat
  /-- The version is a `u64`. -/
  version_lt : manifestVersion < 2 ^ 64
  currentIssuers : List ManifestIssuer
  retiringIssuers : List RetiringIssuer
  revokedIssuers : List Str
  issuedAt : I64
  expiresAt : I64
  deriving DecidableEq, Repr

structure SignedTrustAnchorManifest where
  manifest : TrustAnchorManifest
  signerKid : Str
  signature : Str
  deriving DecidableEq, Repr

inductive TrustManifestError where
  | untrustedSigner
  | badSignature
  | expired (expiresAt now : I64)
  | stale (version minVersion : Nat)
  | profileMismatch
  | malformed (what : String)
  | floorUnreadable (what : String)
  | floorNotPersisted (what : String)
  | floorAboveCeiling (floor ceiling : Nat)
  deriving DecidableEq, Repr

abbrev ManifestVerdict := Except TrustManifestError

/-! ## What is signed (`preimage.rs`) -/

def ManifestIssuer.toValue (i : ManifestIssuer) : Json :=
  .object [field "issuer_kid" (.string i.issuerKid), field "public_key" (.string i.publicKey),
    field "role" (.string i.role), field "trust_domain" (.string i.trustDomain),
    field "subject" (.string i.subject)]

def RetiringIssuer.toValue (i : RetiringIssuer) : Json :=
  .object [field "issuer_kid" (.string i.issuerKid), field "public_key" (.string i.publicKey),
    field "role" (.string i.role), field "trust_domain" (.string i.trustDomain),
    field "subject" (.string i.subject), field "valid_until" (ofI64 i.validUntil)]

def TrustAnchorManifest.toValue (m : TrustAnchorManifest) : Json :=
  .object [field "profile" (.string m.profile), field "manifest_version" (ofU64 m.manifestVersion),
    field "current_issuers" (.array (m.currentIssuers.map ManifestIssuer.toValue)),
    field "retiring_issuers" (.array (m.retiringIssuers.map RetiringIssuer.toValue)),
    field "revoked_issuers" (.array (m.revokedIssuers.map Json.string)),
    field "issued_at" (ofI64 m.issuedAt), field "expires_at" (ofI64 m.expiresAt)]

def manifestSigningDomain : String := "mcp-re/trust-anchor-manifest/v1"

def manifestSigningPreimage (sd : Serde) (manifest : TrustAnchorManifest) (signerKid : Str) :
    ManifestVerdict Bytes := do
  let body ← okOr (sd.toVec manifest.toValue) (.malformed "manifest serialize")
  .ok (utf8 manifestSigningDomain.toList ++ lengthPrefixed (utf8 signerKid) ++ body)

/-! ## The anchors -/

inductive ManifestValidity where
  | absent
  | until (expiresAt : I64)
  deriving DecidableEq, Repr

structure TrustedIssuerSet where
  current : Table Str ResolvedActor
  retired : Table Str (ResolvedActor × I64)
  revoked : List Str
  manifest : ManifestValidity

namespace TrustedIssuerSet

def new : TrustedIssuerSet := ⟨∅, ∅, [], .absent⟩

def withCurrent (self : TrustedIssuerSet) (root : ResolvedActor) : TrustedIssuerSet :=
  { self with current := self.current.insert root.identity.keyid root }

def withRetired (self : TrustedIssuerSet) (root : ResolvedActor) (validUntil : I64) :
    TrustedIssuerSet :=
  { self with retired := self.retired.insert root.identity.keyid (root, validUntil) }

def revoke (self : TrustedIssuerSet) (issuerKid : Str) : TrustedIssuerSet :=
  { self with revoked := issuerKid :: self.revoked }

def withManifestExpiry (self : TrustedIssuerSet) (expiresAt : I64) : TrustedIssuerSet :=
  { self with manifest := .until expiresAt }

end TrustedIssuerSet

structure LoadedTrustAnchors where
  issuerSet : TrustedIssuerSet
  version : Nat
  version_lt : version < 2 ^ 64

def actorOf (P : Platform) (issuerKid publicKey role trustDomain subject : Str) :
    ManifestVerdict ResolvedActor := do
  let verificationKey ← okOr (VerificationKey.fromB64url P publicKey)
    (.malformed "issuer public key")
  .ok {
    identity := { role, trustDomain, subject, keyid := issuerKid }
    verificationKey
    slot := .response }

/-- The set a manifest describes. -/
def TrustAnchorManifest.issuerSet (P : Platform) (m : TrustAnchorManifest) :
    ManifestVerdict TrustedIssuerSet := do
  let set ← m.currentIssuers.foldlM (fun (set : TrustedIssuerSet) i => do
    let actor ← actorOf P i.issuerKid i.publicKey i.role i.trustDomain i.subject
    .ok (set.withCurrent actor)) .new
  let set ← m.retiringIssuers.foldlM (fun (set : TrustedIssuerSet) i => do
    let actor ← actorOf P i.issuerKid i.publicKey i.role i.trustDomain i.subject
    .ok (set.withRetired actor i.validUntil)) set
  let set := m.revokedIssuers.foldl TrustedIssuerSet.revoke set
  .ok (set.withManifestExpiry m.expiresAt)

def loadSignedManifest (P : Platform) (sd : Serde) (signed : SignedTrustAnchorManifest)
    (resolveManifestSigner : Str → Option VerificationKey) (expectedProfile : Str)
    (minVersion : Nat) (now : I64) : ManifestVerdict LoadedTrustAnchors := do
  let orgKey ← okOr (resolveManifestSigner signed.signerKid) .untrustedSigner
  let bytes ← manifestSigningPreimage sd signed.manifest signed.signerKid
  ensure (verifyEd25519With P bytes signed.signature orgKey) .badSignature
  ensure (signed.manifest.profile == expectedProfile) .profileMismatch
  ensure (!decide (signed.manifest.expiresAt < now)) (.expired signed.manifest.expiresAt now)
  ensure (!decide (signed.manifest.manifestVersion < minVersion))
    (.stale signed.manifest.manifestVersion minVersion)
  let issuerSet ← signed.manifest.issuerSet P
  .ok {
    issuerSet
    version := signed.manifest.manifestVersion
    version_lt := signed.manifest.version_lt }

end McpRe.Manifest
