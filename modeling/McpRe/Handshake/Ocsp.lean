import McpRe.Lib.Result
import McpRe.Lib.Text

/-!
# Reading an OCSP response

`verify_and_map_response` of `ocsp.rs` and what it calls: the responder's signature, its identity,
the nonce, the single response that answers the query, and its freshness, in that order. Decoders,
encoders and the verification of signatures belong to libraries and are a parameter (`Pki`), as is
what they say when they fail. SHA-1 is the source's own.

Durations are in nanoseconds and saturate as `Duration` does. An instant before the epoch is
negative.
-/

namespace McpRe.Handshake

open Lib.Result Lib.Text

/-! ## What the decoders yield -/

/-- `CertId`, the fields that identify a certificate. -/
structure CertId where
  hashAlgorithm : Str
  issuerNameHash : Bytes
  issuerKeyHash : Bytes
  serialNumber : Bytes
  deriving DecidableEq

inductive CertStatus where
  | good
  | revoked
  | unknown
  deriving DecidableEq

/-- `der::DateTime`, which ends with the year 9999. -/
structure DateTime where
  unixSecs : Nat
  unixSecs_lt : unixSecs < 253402300800
  deriving DecidableEq

structure SingleResponse where
  certId : CertId
  certStatus : CertStatus
  thisUpdate : DateTime
  nextUpdate : Option DateTime
  deriving DecidableEq

/-- A name is kept as the decoder leaves it. -/
inductive ResponderId where
  | byName (name : Bytes)
  | byKey (keyHash : Bytes)
  deriving DecidableEq

/-- `BasicOcspResponse`, with what its parts encode to. -/
structure BasicOcspResponse where
  responderId : ResponderId
  responses : List SingleResponse
  nonce : Option Bytes
  tbsDer : Except Str Bytes
  signatureAlgorithmDer : Except Str Bytes
  signature : Bytes
  certs : Option (List (Except Str Bytes))
  deriving DecidableEq

inductive OcspResponseStatus where
  | successful
  | malformedRequest
  | internalError
  | tryLater
  | sigRequired
  | unauthorized
  deriving DecidableEq

structure OcspResponse where
  responseStatus : OcspResponseStatus
  responseBytes : Option Bytes
  deriving DecidableEq

structure ExtendedKeyUsage where
  ocspSigning : Bool
  other : List Str
  deriving DecidableEq

/-- `x509_parser::X509Certificate`; the validity is in seconds, and an extension that is absent or
does not parse is `none`. -/
structure X509Certificate where
  notBefore : Int
  notAfter : Int
  extendedKeyUsage : Option ExtendedKeyUsage
  publicKey : Bytes
  deriving DecidableEq

/-- `x509_cert::Certificate`, as `responder_id_matches` reads it. -/
structure Certificate where
  subject : Bytes
  subjectPublicKey : Bytes
  deriving DecidableEq

/-- The libraries. -/
structure Pki where
  /-- `OcspResponse::from_der`. -/
  ocspResponse : Bytes → Except Str OcspResponse
  /-- `BasicOcspResponse::from_der`. -/
  basicOcspResponse : Bytes → Except Str BasicOcspResponse
  /-- `X509Certificate::from_der`. -/
  x509Certificate : Bytes → Except Str X509Certificate
  /-- `AlgorithmIdentifier::from_der`. -/
  algorithmIdentifier : Bytes → Except Str Bytes
  /-- `Certificate::from_der`. -/
  certificate : Bytes → Option Certificate
  /-- `Name::to_der`. -/
  nameDer : Bytes → Option Bytes
  /-- `ASN1Time::from_timestamp`. -/
  asn1Time : Int → Option Int
  /-- `x509_parser::verify::verify_signature`, of a key, an algorithm, a signature and what is
  signed. -/
  verifySignature : Bytes → Bytes → Bytes → Bytes → Bool
  /-- `X509Certificate::verify_signature`, of a certificate under a key. -/
  certificateSignature : X509Certificate → Bytes → Bool

/-! ## Outcomes -/

inductive CertRevocationStatus where
  | good
  | revoked
  | unknown
  deriving DecidableEq

structure TrustedRevocationAnswer where
  status : CertRevocationStatus
  deriving DecidableEq

/-- `OcspError`, as far as reading a response can raise it. -/
inductive OcspError where
  | decodeResponse (details : Str)
  | responderStatus (status : OcspResponseStatus)
  | malformedResponse (details : Str)
  | signatureNotVerified (details : Str)
  | responderIdentityMismatch (details : Str)
  | certIdMismatch
  | notFresh (details : Str)
  | nonceMismatch
  deriving DecidableEq

def mapCertStatus : CertStatus → CertRevocationStatus
  | .good => .good
  | .revoked => .revoked
  | .unknown => .unknown

/-- `decide_allow`: `true` admits the connection. -/
def decideAllow (status : CertRevocationStatus) (softFail : Bool) : Bool :=
  match status with
  | .good => true
  | .revoked => false
  | .unknown => softFail

/-! ## Time -/

def nanos (secs : Nat) : Nat := secs * 10 ^ 9

/-- `Duration::MAX`. -/
def durationMax : Nat := 2 ^ 64 * 10 ^ 9 - 1

/-- `Duration::saturating_add`. -/
def saturatingAdd (a b : Nat) : Nat := min (a + b) durationMax

def DateTime.toUnixDuration (d : DateTime) : Nat := nanos d.unixSecs

def ocspFreshnessSkew : Nat := nanos 300

def ocspMaxResponseAge : Nat := nanos 86400

def systemTimeToUnix (now : Int) : Option Nat := if 0 ≤ now then some now.toNat else none

def isFresh (single : SingleResponse) (now : Int) (skew maxAge : Nat) : Bool :=
  match systemTimeToUnix now with
  | none => false
  | some nowUnix =>
    let thisUpdate := single.thisUpdate.toUnixDuration
    if saturatingAdd nowUnix skew < thisUpdate then false
    else
      let ageCap := saturatingAdd thisUpdate maxAge
      let upper :=
        match single.nextUpdate with
        | some nextUpdate => min nextUpdate.toUnixDuration ageCap
        | none => ageCap
      if saturatingAdd upper skew < nowUnix then false else true

/-! ## SHA-1 -/

/-- The message with its padding: zeros up to eight bytes before a whole block, and its length. -/
def sha1Pad (data : Bytes) : Bytes :=
  let msg := data ++ [0x80]
  let zeros := (120 - msg.length % 64) % 64
  let bits := (data.length * 8) % 2 ^ 64
  msg ++ List.replicate zeros 0
    ++ (List.range 8).map fun i => UInt8.ofNat (bits / 256 ^ (7 - i))

def wordOfBytes (bytes : Bytes) : UInt32 :=
  bytes.foldl (fun w b => w * 256 + b.toUInt32) 0

def rotateLeft (w : UInt32) (n : UInt32) : UInt32 := (w <<< n) ||| (w >>> (32 - n))

/-- The message schedule; the latest word is in front. -/
def sha1Schedule : Nat → List UInt32 → List UInt32
  | 0, w => w
  | n + 1, w =>
    sha1Schedule n
      (rotateLeft (w.getD 2 0 ^^^ w.getD 7 0 ^^^ w.getD 13 0 ^^^ w.getD 15 0) 1 :: w)

structure Sha1State where
  a : UInt32
  b : UInt32
  c : UInt32
  d : UInt32
  e : UInt32
  deriving DecidableEq

def sha1Init : Sha1State := ⟨0x67452301, 0xEFCDAB89, 0x98BADCFE, 0x10325476, 0xC3D2E1F0⟩

def sha1Round (s : Sha1State) (i : Nat) (wi : UInt32) : Sha1State :=
  let (f, k) : UInt32 × UInt32 :=
    if i < 20 then ((s.b &&& s.c) ||| (~~~s.b &&& s.d), 0x5A827999)
    else if i < 40 then (s.b ^^^ s.c ^^^ s.d, 0x6ED9EBA1)
    else if i < 60 then ((s.b &&& s.c) ||| (s.b &&& s.d) ||| (s.c &&& s.d), 0x8F1BBCDC)
    else (s.b ^^^ s.c ^^^ s.d, 0xCA62C1D6)
  let tmp := rotateLeft s.a 5 + f + s.e + k + wi
  ⟨tmp, s.a, rotateLeft s.b 30, s.c, s.d⟩

def sha1Chunk (h : Sha1State) (chunk : Bytes) : Sha1State :=
  let words := (List.range 16).map fun i => wordOfBytes ((chunk.drop (4 * i)).take 4)
  let w := (sha1Schedule 64 words.reverse).reverse
  let s := w.zipIdx.foldl (fun s wi => sha1Round s wi.2 wi.1) h
  ⟨h.a + s.a, h.b + s.b, h.c + s.c, h.d + s.d, h.e + s.e⟩

def bytesOfWord (w : UInt32) : Bytes :=
  [(w >>> 24).toUInt8, (w >>> 16).toUInt8, (w >>> 8).toUInt8, w.toUInt8]

def sha1Hash (data : Bytes) : Bytes :=
  let msg := sha1Pad data
  let h := (List.range (msg.length / 64)).foldl
    (fun h i => sha1Chunk h ((msg.drop (64 * i)).take 64)) sha1Init
  [h.a, h.b, h.c, h.d, h.e].flatMap bytesOfWord

/-! ## The responder -/

def idKpOcspSigning : String := "1.3.6.1.5.5.7.3.9"

variable (X : Pki)

def signatureVerifies (signerCertDer sigAlgDer sigBytes signedDer : Bytes) :
    Except OcspError Bool := do
  let signer ← (X.x509Certificate signerCertDer).mapError fun e =>
    .signatureNotVerified ("signer cert parse: ".toList ++ e)
  let sigAlg ← (X.algorithmIdentifier sigAlgDer).mapError fun e =>
    .signatureNotVerified ("signature algorithm parse: ".toList ++ e)
  .ok (X.verifySignature signer.publicKey sigAlg sigBytes signedDer)

/-- `as i64` of an unsigned number of seconds. -/
def asI64 (n : Nat) : Int := ((n : Int) + 2 ^ 63) % 2 ^ 64 - 2 ^ 63

def X509Certificate.isValidAt (cert : X509Certificate) (time : Int) : Bool :=
  decide (cert.notBefore ≤ time) && decide (time ≤ cert.notAfter)

def delegatedResponderIsValid (certDer issuerDer : Bytes) (now : Int) : Except OcspError Bool := do
  let cert ← (X.x509Certificate certDer).mapError fun e =>
    .signatureNotVerified ("delegated cert parse: ".toList ++ e)
  match systemTimeToUnix now with
  | none => .ok false
  | some nowUnix =>
    match X.asn1Time (asI64 (nowUnix / 10 ^ 9)) with
    | none => .ok false
    | some nowAsn1 =>
      if !cert.isValidAt nowAsn1 then .ok false
      else
        let hasOcspEku :=
          match cert.extendedKeyUsage with
          | some eku => eku.ocspSigning || eku.other.any (· == idKpOcspSigning.toList)
          | none => false
        if !hasOcspEku then .ok false
        else
          let issuer ← (X.x509Certificate issuerDer).mapError fun e =>
            .signatureNotVerified ("issuer parse: ".toList ++ e)
          .ok (X.certificateSignature cert issuer.publicKey)

/-- The delegated responders, in the order of the response. -/
def delegatedSigner (sigAlgDer sigBytes tbsDer issuerDer : Bytes) (now : Int) :
    List (Except Str Bytes) → Except OcspError (Option Bytes)
  | [] => .ok none
  | cert :: certs => do
    let certDer ← cert.mapError fun e => .signatureNotVerified ("responder cert DER: ".toList ++ e)
    if !(← delegatedResponderIsValid X certDer issuerDer now) then
      delegatedSigner sigAlgDer sigBytes tbsDer issuerDer now certs
    else if ← signatureVerifies X certDer sigAlgDer sigBytes tbsDer then .ok (some certDer)
    else delegatedSigner sigAlgDer sigBytes tbsDer issuerDer now certs

def verifyResponderSignature (basic : BasicOcspResponse) (issuerDer : Bytes) (now : Int) :
    Except OcspError Bytes := do
  let tbsDer ← basic.tbsDer.mapError fun e =>
    .signatureNotVerified ("re-encode tbs: ".toList ++ e)
  let sigAlgDer ← basic.signatureAlgorithmDer.mapError fun e =>
    .signatureNotVerified ("re-encode sigalg: ".toList ++ e)
  if ← signatureVerifies X issuerDer sigAlgDer basic.signature tbsDer then .ok issuerDer
  else
    let signer ← delegatedSigner X sigAlgDer basic.signature tbsDer issuerDer now
      (basic.certs.getD [])
    okOr signer (.signatureNotVerified
      ("no issuer or delegated id-kp-OCSPSigning responder key verified the signature".toList))

def responderIdMatches (responderId : ResponderId) (signerCertDer : Bytes) : Bool :=
  match X.certificate signerCertDer with
  | none => false
  | some signer =>
    match responderId with
    | .byName name =>
      match X.nameDer name, X.nameDer signer.subject with
      | some a, some b => a == b
      | _, _ => false
    | .byKey keyHash => keyHash == sha1Hash signer.subjectPublicKey

/-! ## The answer -/

def nonceOk (basic : BasicOcspResponse) (requestNonce : Bytes) : Bool :=
  match basic.nonce with
  | none => true
  | some echoed => echoed == requestNonce

def certIdsBind (a b : CertId) : Bool :=
  a.hashAlgorithm == b.hashAlgorithm && a.issuerNameHash == b.issuerNameHash
    && a.issuerKeyHash == b.issuerKeyHash && a.serialNumber == b.serialNumber

def selectMatchingSingleResponse (basic : BasicOcspResponse) (expected : CertId) :
    Option SingleResponse :=
  basic.responses.find? fun single => certIdsBind single.certId expected

def notFreshDetails : String :=
  "response not fresh: now outside [thisUpdate - skew, upper + skew], "
    ++ "where upper = min(nextUpdate, thisUpdate + max_response_age)"

def verifyAndMapResponse (responseDer issuerDer : Bytes) (expectedCertId : CertId)
    (requestNonce : Bytes) (now : Int) : Except OcspError TrustedRevocationAnswer := do
  let response ← (X.ocspResponse responseDer).mapError .decodeResponse
  ensure (response.responseStatus == .successful) (.responderStatus response.responseStatus)
  let responseBytes ← okOr response.responseBytes
    (.malformedResponse "successful response with no bytes".toList)
  let basic ← (X.basicOcspResponse responseBytes).mapError fun e =>
    .malformedResponse ("not a BasicOCSPResponse: ".toList ++ e)
  let signer ← verifyResponderSignature X basic issuerDer now
  ensure (responderIdMatches X basic.responderId signer)
    (.responderIdentityMismatch "responder_id does not match the signing certificate".toList)
  ensure (nonceOk basic requestNonce) .nonceMismatch
  let single ← okOr (selectMatchingSingleResponse basic expectedCertId) .certIdMismatch
  ensure (isFresh single now ocspFreshnessSkew ocspMaxResponseAge) (.notFresh notFreshDetails.toList)
  .ok ⟨mapCertStatus single.certStatus⟩

end McpRe.Handshake
