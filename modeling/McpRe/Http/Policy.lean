import McpRe.Http.Digest
import McpRe.Lib.I64

/-!
# The verifier's policy and the transport contract

`VerifierPolicy` (`policy.rs`) and the configurable transport policy it may carry
(`mcp_transport/`), with the checks of covered transport headers against the signed body.
-/

namespace McpRe.Http

open Lib Lib.Result Lib.Text

/-! ## Transport headers -/

def mcpMethodHeader : String := "mcp-method"

def mcpNameHeader : String := "mcp-name"

def mcpProtocolVersionHeader : String := "mcp-protocol-version"

/-- `McpNameSource`: the `params` member an `mcp-name` header mirrors. -/
inductive McpNameSource where
  | paramsName
  | paramsUri
  deriving DecidableEq, Repr

def McpNameSource.extract (params : Json) : McpNameSource → Option Str
  | paramsName => (params.get "name").bind Json.asStr
  | paramsUri => (params.get "uri").bind Json.asStr

structure McpTransportPolicy where
  supportedProtocolVersions : List Str
  requireProtocolVersionHeader : Bool
  requireMcpMethod : Bool
  mcpNameRequired : List (Str × McpNameSource)
  allowLegacyHeaderOmission : Bool
  protocolVersionBodyKey : String
  deriving Repr

structure TransportHeaders where
  method : Option Str
  version : Option Str
  name : Option Str
  legacy : Bool

namespace McpTransportPolicy

variable (t : McpTransportPolicy)

def read (request : HttpRequest) : Verdict TransportHeaders := do
  let method ← singleHeader request.headers mcpMethodHeader
  let version ← singleHeader request.headers mcpProtocolVersionHeader
  let name ← singleHeader request.headers mcpNameHeader
  let carriesAny := method.isSome || version.isSome || name.isSome
  .ok ⟨method, version, name, t.allowLegacyHeaderOmission && !carriesAny⟩

def bodyProtocolVersion (body : Json) (params : Option Json) : Option Str :=
  let from_ (v : Json) : Option Str :=
    ((v.get "_meta").bind (Json.get t.protocolVersionBodyKey)).bind Json.asStr
  (from_ body).or (params.bind from_)

def checkMethod (headers : TransportHeaders) (bodyMethod : Option Str) : Verdict Unit :=
  match headers.method, bodyMethod with
  | none, _ =>
    ensure (!(t.requireMcpMethod && !headers.legacy)) (.mcpTransportHeaderMissing mcpMethodHeader)
  | some h, some bm => ensure (trim h == bm) .mcpMethodDivergence
  | some _, none => .ok ()

def checkProtocolVersion (headers : TransportHeaders) (body : Json) (params : Option Json) :
    Verdict Unit :=
  match headers.version with
  | none =>
    ensure (!(t.requireProtocolVersionHeader && !headers.legacy))
      (.mcpTransportHeaderMissing mcpProtocolVersionHeader)
  | some h => do
    ensure (t.supportedProtocolVersions.contains (trim h)) .mcpProtocolVersionUnsupported
    match t.bodyProtocolVersion body params with
    | some bodyVersion =>
      ensure (bodyVersion == trim h) (.mcpTransportDivergence mcpProtocolVersionHeader)
    | none => .ok ()

def checkName (headers : TransportHeaders) (bodyMethod : Option Str) (params : Option Json) :
    Verdict Unit :=
  match bodyMethod with
  | none => .ok ()
  | some bm =>
    match t.mcpNameRequired.find? fun m => m.1 == bm with
    | none => .ok ()
    | some (_, source) =>
      match headers.name with
      | none => ensure headers.legacy (.mcpTransportHeaderMissing mcpNameHeader)
      | some h => do
        let expected ← okOr (params.bind fun p => source.extract p)
          (.mcpTransportDivergence mcpNameHeader)
        ensure (trim h == expected) (.mcpTransportDivergence mcpNameHeader)

def enforce (P : Platform) (request : HttpRequest) : Verdict Unit := do
  let body ← okOr (P.fromSlice request.body) (.malformedEvidence "body json")
  let bodyMethod := (body.get "method").bind Json.asStr
  let params := body.get "params"
  let headers ← t.read request
  t.checkMethod headers bodyMethod
  t.checkProtocolVersion headers body params
  t.checkName headers bodyMethod params

end McpTransportPolicy

/-- `reject_mcp_method_divergence`: a present `mcp-method` agrees with the body, whatever the
policy. -/
def rejectMcpMethodDivergence (P : Platform) (request : HttpRequest) : Verdict Unit := do
  let header ← singleHeader request.headers mcpMethodHeader
  match header with
  | none => .ok ()
  | some headerMethod => do
    let body ← okOr (P.fromSlice request.body) (.malformedEvidence "body json")
    let bodyMethod ← okOr ((body.get "method").bind Json.asStr) .mcpMethodDivergence
    ensure (trim headerMethod == bodyMethod) .mcpMethodDivergence

/-! ## The policy -/

inductive ProfileAlgorithm where
  | ed25519
  deriving DecidableEq, Repr

def ProfileAlgorithm.fromToken (token : Str) : Option ProfileAlgorithm :=
  if token = algEd25519.toList then some ed25519 else none

def maxClockSkewBound : Int := 300

/-- `VerifierPolicy`: its constructors refuse an empty algorithm set, a skew out of bounds and a
ceiling that is not positive. -/
structure VerifierPolicy where
  algorithms : List ProfileAlgorithm
  maxClockSkew : I64
  maxSignatureValidity : I64
  mcpTransport : Option McpTransportPolicy
  algorithms_ne_nil : algorithms ≠ []
  skew_nonneg : 0 ≤ maxClockSkew.val
  skew_le : maxClockSkew.val ≤ maxClockSkewBound
  validity_pos : 0 < maxSignatureValidity.val

def VerifierPolicy.default : VerifierPolicy where
  algorithms := [.ed25519]
  maxClockSkew := 30
  maxSignatureValidity := 3600
  mcpTransport := none
  algorithms_ne_nil := by decide
  skew_nonneg := by decide
  skew_le := by decide
  validity_pos := by decide

def VerifierPolicy.acceptedAlgorithm (policy : VerifierPolicy) (token : Str) :
    Option ProfileAlgorithm := do
  let alg ← ProfileAlgorithm.fromToken token
  if policy.algorithms.contains alg then some alg else none

end McpRe.Http
