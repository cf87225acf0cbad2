import McpRe.Lib.Result
import McpRe.Lib.Text

/-!
# HTTP messages

The two message types of the HTTP profile (`message.rs`), its error taxonomy (`error.rs`) and the
exactly-once header lookups every verification stage reads a message through.
-/

namespace McpRe.Http

open Lib.Result Lib.Text

/-- `HttpProfileError`: every way the profile refuses a message. -/
inductive HttpProfileError where
  | missingEvidence (what : String)
  | malformedEvidence (what : String)
  | duplicateHeader (name : String)
  | contentEncodingPresent
  | nonJsonMediaType
  | contentDigestMismatch
  | missingCoveredComponent (name : String)
  | unknownProfileTag
  | unsupportedAlgorithm
  | invalidSignature
  | staleWindow
  | unresolvedKeyId
  | trustResolverUnavailable
  | actorSlotMismatch
  | artifactBindingFailed
  | audienceMismatch
  | responseBindingMismatch
  | responseSignatureInvalid
  | continuationBindingFailed
  | unrecognizedResultType
  | upstreamResponseInvalid (what : String)
  | mcpMethodDivergence
  | mcpTransportHeaderMissing (name : String)
  | mcpProtocolVersionUnsupported
  | mcpTransportDivergence (name : String)
  | admissionAssertionInvalid
  | admissionIssuerUntrusted
  | admissionAssertionExpired
  | admissionBindingMismatch
  | admissionNotCurrent
  | admissionStateUnavailable
  | receiptInvalid
  | receiptInclusionInvalid
  | receiptIssuerUntrusted
  | receiptPositionUnbound
  | receiptPositionMismatch
  | delegationCredentialMissing
  | delegationCredentialInvalid
  | delegationCredentialExpired
  | delegationIssuerUntrusted
  | delegationProfileMismatch
  | delegationAudienceMismatch
  | delegationKeyUseInvalid
  | delegationTrustEpochStale
  | delegationKeyMismatch
  | delegationRevoked
  deriving DecidableEq, Repr

/-- A fallible step of the profile. -/
abbrev Verdict := Except HttpProfileError

/-- The header fields of a message, in wire order. -/
abbrev Headers := List (Str × Str)

structure HttpRequest where
  method : Str
  targetUri : Str
  headers : Headers
  body : Bytes
  deriving DecidableEq

structure HttpResponse where
  status : UInt16
  headers : Headers
  body : Bytes
  deriving DecidableEq

/-! ## Identifiers of the profile (`ids.rs`) -/

def profileTag : String := "mcp-re-http-v1"

def requestLabel : String := "mcp-re"

def responseLabel : String := "mcp-re-response"

def algEd25519 : String := "ed25519"

/-! ## Exactly-once lookup -/

/-- Does the field `kv` carry `name`, up to ASCII case? -/
def isField (name : String) (kv : Str × Str) : Bool :=
  eqIgnoreAsciiCase kv.1 name.toList

/-- The lookup loop over header fields: `found` so far, each value through `f`, a second field of
the same name refused with `dup`. -/
def findField (dup : HttpProfileError) (name : String) (f : Str → Str) :
    Option Str → Headers → Verdict (Option Str)
  | found, [] => .ok found
  | found, kv :: rest =>
    if isField name kv then
      if found.isSome then .error dup else findField dup name f (some (f kv.2)) rest
    else findField dup name f found rest

def singleHeader (headers : Headers) (name : String) : Verdict (Option Str) :=
  findField (.duplicateHeader name) name id none headers

def requiredHeader (headers : Headers) (name : String) : Verdict Str := do
  let value ← singleHeader headers name
  okOr value (.missingEvidence name)

/-- The values of the fields that carry `name`. -/
def fieldValues (headers : Headers) (name : String) : List Str :=
  (headers.filter (isField name)).map Prod.snd

/-- The lookup succeeds exactly when at most one value is found, counting the one it started
with. -/
theorem findField_eq_ok {dup : HttpProfileError} {name : String} {f : Str → Str}
    {found r : Option Str} {headers : Headers} :
    findField dup name f found headers = .ok r ↔
      (fieldValues headers name = [] ∧ r = found) ∨
      (found = none ∧ ∃ v, fieldValues headers name = [v] ∧ r = some (f v)) := by
  induction headers generalizing found with
  | nil => simp [findField, fieldValues, eq_comm]
  | cons kv rest ih =>
    by_cases hk : isField name kv = true
    · cases found with
      | none => simp [findField, hk, ih, fieldValues, and_assoc]
      | some w => simp [findField, hk, fieldValues]
    · simp [findField, hk, ih, fieldValues]

theorem singleHeader_eq_ok {headers : Headers} {name : String} {r : Option Str} :
    singleHeader headers name = .ok r ↔
      (fieldValues headers name = [] ∧ r = none) ∨
      ∃ v, fieldValues headers name = [v] ∧ r = some v := by
  simp [singleHeader, findField_eq_ok]

theorem requiredHeader_eq_ok {headers : Headers} {name : String} {v : Str} :
    requiredHeader headers name = .ok v ↔ fieldValues headers name = [v] := by
  simp [requiredHeader, singleHeader_eq_ok]

/-! ## Wire preconditions -/

def jsonMediaType : String := "application/json"

/-- `require_json_media_type`: every lookup failure is the caller's `what`. -/
def requireJsonMediaType (headers : Headers) (what : String) : Verdict Unit := do
  let value ← (requiredHeader headers "content-type").mapError fun _ => .missingEvidence what
  let mediaType := trim ((value.splitOn ';').headD [])
  ensure (eqIgnoreAsciiCase mediaType jsonMediaType.toList) .nonJsonMediaType

/-- `reject_content_encoding`: only `identity` may be present, however often. -/
def rejectContentEncoding (headers : Headers) : Verdict Unit :=
  ensure
    (headers.all fun kv =>
      !(isField "content-encoding" kv && !eqIgnoreAsciiCase (trim kv.2) "identity".toList))
    .contentEncodingPresent

end McpRe.Http
