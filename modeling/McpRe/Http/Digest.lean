import McpRe.Http.Message
import McpRe.Lib.Base64

/-!
# Digests and evidence handles

The third-party packages the profile calls are the fields of `Platform`. Over them, the content
digest of RFC 9530 (`digest.rs`) and the role-labelled evidence handles (`evidence.rs`).
-/

namespace McpRe.Http

open Lib Lib.Result Lib.Text

/-- A 32-byte digest. -/
structure Digest where
  bytes : Bytes
  length_eq : bytes.length = 32
  deriving DecidableEq, Repr

theorem length_zeros : (List.replicate 32 (0 : UInt8)).length = 32 := List.length_replicate

/-- A `serde_json::Value`. A number is kept by its text. -/
inductive Json where
  | null
  | bool (b : Bool)
  | number (text : Str)
  | string (s : Str)
  | array (items : List Json)
  | object (fields : List (Str × Json))
  deriving Repr

namespace Json

/-- `Value::get` of an object member. -/
def get (key : String) : Json → Option Json
  | object fields => (fields.find? fun kv => kv.1 == key.toList).map Prod.snd
  | _ => none

def asStr : Json → Option Str
  | string s => some s
  | _ => none

end Json

/-- `VerificationKey`: the 32 bytes of an Ed25519 key. -/
structure VerificationKey where
  bytes : Bytes
  deriving DecidableEq, Repr

/-- The packages outside the repository: `sha2`, `serde_json` and `ed25519_dalek`. -/
structure Platform where
  /-- `Sha256::digest`. -/
  sha256 : Bytes → Digest
  /-- `serde_json::from_slice::<Value>`. -/
  fromSlice : Bytes → Option Json
  /-- What `serde_json::from_slice` shows a typed reader: the members of an object in the order of
  the text, repeated ones kept. -/
  readDocument : Bytes → Option Json
  /-- `VerifyingKey::from_bytes`: are the 32 bytes a point of the curve? -/
  isPoint : Bytes → Bool
  /-- `VerifyingKey::verify_strict`, of a key, a preimage and a 64-byte signature. -/
  verifyStrict : VerificationKey → Bytes → Bytes → Bool

/-! ## Content digest -/

/-- The member key, up to its value. -/
def sha256Member : String := "sha-256="

def contentDigestSha256 (P : Platform) (body : Bytes) : Str :=
  sha256Member.toList ++ ':' :: Base64.encode Base64.standard (P.sha256 body).bytes ++ [':']

/-- Is a member of the header a `sha-256` one? -/
def isSha256Member (member : Str) : Bool :=
  (stripPrefix sha256Member.toList (trim member)).isSome

/-- `verify_content_digest_sha256`: one `sha-256` member, equal to the body's digest. -/
def verifyContentDigestSha256 (P : Platform) (headerValue : Str) (body : Bytes) : Verdict Unit := do
  let members := headerValue.splitOn ','
  ensure (decide ((members.filter isSha256Member).length ≤ 1))
    (.malformedEvidence "content-digest carries more than one sha-256 member")
  match members.find? isSha256Member with
  | some member => ensure (trim member == contentDigestSha256 P body) .contentDigestMismatch
  | none => .error (.malformedEvidence "content-digest sha-256 member")

/-! ## Evidence handles -/

def evidenceDigestAlg : String := "sha256"

def evidenceLabelRequest : String := "mcp-re-http-v1/request-evidence"

def evidenceLabelResponse : String := "mcp-re-http-v1/response-evidence"

def evidenceLabelRequestState : String := "mcp-re-http-v1/request-state"

/-- The labelled preimage: the label, a zero byte, the bytes. -/
def labeledPreimage (label : String) (bytes : Bytes) : Bytes :=
  utf8 label.toList ++ 0 :: bytes

def labeledDigestValue (P : Platform) (label : String) (bytes : Bytes) : Str :=
  Base64.encode Base64.urlSafeNoPad (P.sha256 (labeledPreimage label bytes)).bytes

/-- `RequestEvidence`, and the block field `RequestEvidenceDigest` of the same shape: a digest in
split form. -/
structure RequestEvidence where
  digestAlg : Str
  digestValue : Str
  deriving DecidableEq, Repr

def RequestEvidence.overLabeled (P : Platform) (label : String) (bytes : Bytes) : RequestEvidence :=
  ⟨evidenceDigestAlg.toList, labeledDigestValue P label bytes⟩

/-- `matches_labeled`: does the digest commit to the bytes under the label? -/
def RequestEvidence.matchesLabeled (P : Platform) (e : RequestEvidence) (label : String)
    (bytes : Bytes) : Bool :=
  e.digestAlg == evidenceDigestAlg.toList && e.digestValue == labeledDigestValue P label bytes

def RequestEvidence.fromSignatureBase (P : Platform) (base : Bytes) : RequestEvidence :=
  .overLabeled P evidenceLabelRequest base

def RequestEvidence.fromResponseSignatureBase (P : Platform) (base : Bytes) : RequestEvidence :=
  .overLabeled P evidenceLabelResponse base

theorem Digest.ext_iff {d e : Digest} : d = e ↔ d.bytes = e.bytes := by
  cases d
  cases e
  simp

theorem contentDigestSha256_inj {P : Platform} {b c : Bytes}
    (h : contentDigestSha256 P b = contentDigestSha256 P c) : P.sha256 b = P.sha256 c := by
  rw [Digest.ext_iff]
  apply Base64.encode_injective Base64.standard
  simpa [contentDigestSha256] using h

/-- An accepted header: its first `sha-256` member, trimmed, is the body's digest. -/
theorem verifyContentDigestSha256_eq_ok {P : Platform} {v : Str} {body : Bytes} {u : Unit}
    (h : verifyContentDigestSha256 P v body = .ok u) :
    ∃ member, (v.splitOn ',').find? isSha256Member = some member ∧
      trim member = contentDigestSha256 P body := by
  simp only [verifyContentDigestSha256, bind_eq_ok] at h
  obtain ⟨-, -, h⟩ := h
  cases hfind : (v.splitOn ',').find? isSha256Member with
  | none => rw [hfind] at h; cases h
  | some member =>
    rw [hfind] at h
    simp only [ensure_eq_ok, beq_iff_eq] at h
    exact ⟨member, rfl, h⟩

theorem RequestEvidence.matchesLabeled_overLabeled (P : Platform) (label : String) (bytes : Bytes) :
    (RequestEvidence.overLabeled P label bytes).matchesLabeled P label bytes = true := by
  simp [matchesLabeled, overLabeled]

theorem labeledPreimage_injective (label : String) : Function.Injective (labeledPreimage label) := by
  intro b c h
  simpa [labeledPreimage] using h

/-- Equal handles of one role have preimages with equal digests. -/
theorem overLabeled_inj {P : Platform} {label : String} {b c : Bytes}
    (h : RequestEvidence.overLabeled P label b = .overLabeled P label c) :
    P.sha256 (labeledPreimage label b) = P.sha256 (labeledPreimage label c) := by
  rw [Digest.ext_iff]
  simp only [RequestEvidence.overLabeled, RequestEvidence.mk.injEq] at h
  exact Base64.encode_injective Base64.urlSafeNoPad h.2

end McpRe.Http
