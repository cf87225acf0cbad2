import McpRe.Http.Floor

/-!
# Signing

The producer side of the proof path (`sign.rs`): a message gets its digest, the signature base is
built from the components the profile covers, and the signature over it is written under the
profile's label. The signing key is a parameter: a local key, or a signer outside the process.
-/

namespace McpRe.Http

open Lib Lib.Result Lib.Text

/-- `set_header`: every field of the name goes, and the new one comes last. -/
def setHeader (headers : Headers) (name : String) (value : Str) : Headers :=
  (headers.filter fun kv => !isField name kv) ++ [(name.toList, value)]

def ed25519SignatureLen : Nat := 64

/-- A signer: the raw signature over a base, or a refusal. -/
abbrev Signer := Bytes → Verdict Bytes

/-- `SigningKey` of `ed25519_dalek`: a signature is 64 bytes. -/
structure SigningKey where
  sign : Bytes → Bytes
  length_sign : ∀ preimage, (sign preimage).length = 64

/-- `local_sig`: the core signer returns base64url, which is decoded again. -/
def localSig (key : SigningKey) : Signer := fun base =>
  okOr (b64urlDecode (b64urlEncode (key.sign base))) .invalidSignature

/-- `emit_signature`: the headers with `Signature-Input` and `Signature` under `label`. -/
def emitSignature (headers : Headers) (label : String) (components : List CoveredComponent)
    (params : SignatureParams) (base : Bytes) (signBase : Signer) : Verdict Headers := do
  let sigBytes ← signBase base
  ensure (decide (sigBytes.length = ed25519SignatureLen)) .invalidSignature
  let value ← params.serializeWith components
  let headers := setHeader headers "Signature-Input" (label.toList ++ '=' :: value)
  .ok (setHeader headers "Signature"
    (label.toList ++ '=' :: (':' :: Base64.encode Base64.standard sigBytes ++ [':'])))

/-- The parameters a signer of the profile states. -/
def profileParams (nonce : Option Str) (keyId : Str) (created expires : I64) : SignatureParams where
  created := some created
  expires := some expires
  nonce
  keyid := some keyId
  alg := some algEd25519.toList
  tag := some profileTag.toList

/-! ## Requests -/

/-- The loop of `conditional_request_components`. -/
def presentComponents (headers : Headers) : List ComponentName → Verdict (List CoveredComponent)
  | [] => .ok []
  | header :: rest => do
    let value ← singleHeader headers header.text
    let components ← presentComponents headers rest
    .ok (if value.isSome then ⟨header, false⟩ :: components else components)

def conditionalRequestComponents (headers : Headers) : Verdict (List CoveredComponent) :=
  presentComponents headers conditionallyCoveredRequestHeaders

def requestComponents (request : HttpRequest) : Verdict (List CoveredComponent) := do
  let conditional ← conditionalRequestComponents request.headers
  .ok ((requiredRequestComponents.map fun n => ⟨n, false⟩) ++ conditional)

/-- `sign_request_with_signer`: the signed request and its evidence handle. -/
def signRequestWithSigner (P : Platform) (request : HttpRequest) (signBase : Signer) (keyId : Str)
    (created expires : I64) (nonce : Str) : Verdict (HttpRequest × RequestEvidence) := do
  rejectContentEncoding request.headers
  let request := { request with
    headers := setHeader request.headers "Content-Digest" (contentDigestSha256 P request.body) }
  let components ← requestComponents request
  let params := profileParams (some nonce) keyId created expires
  let base ← signatureBase components params (.request request)
  let headers ← emitSignature request.headers requestLabel components params base signBase
  .ok ({ request with headers }, .fromSignatureBase P base)

def signRequest (P : Platform) (request : HttpRequest) (key : SigningKey) (keyId : Str)
    (created expires : I64) (nonce : Str) : Verdict (HttpRequest × RequestEvidence) :=
  signRequestWithSigner P request (localSig key) keyId created expires nonce

end McpRe.Http
