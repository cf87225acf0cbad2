import McpRe.Http.Message
import McpRe.Lib.I64

/-!
# The signature base

Covered components, signature parameters and the signature base of `sigbase.rs`: one line per
covered component, then the `"@signature-params"` line, joined by newlines.
-/

namespace McpRe.Http

open Lib Lib.Result Lib.Text

/-! ## Covered components -/

/-- The closed set of component names the profile can cover. -/
inductive ComponentName where
  | method
  | targetUri
  | authority
  | path
  | status
  | contentDigest
  | contentType
  | contentLength
  | authorization
  | dpop
  | mcpMethod
  | mcpName
  | mcpProtocolVersion
  | mcpReDelegation
  | mcpReRequestEvidence
  deriving DecidableEq, Repr

namespace ComponentName

def text : ComponentName → String
  | method => "@method"
  | targetUri => "@target-uri"
  | authority => "@authority"
  | path => "@path"
  | status => "@status"
  | contentDigest => "content-digest"
  | contentType => "content-type"
  | contentLength => "content-length"
  | authorization => "authorization"
  | dpop => "dpop"
  | mcpMethod => "mcp-method"
  | mcpName => "mcp-name"
  | mcpProtocolVersion => "mcp-protocol-version"
  | mcpReDelegation => "mcp-re-delegation"
  | mcpReRequestEvidence => "mcp-re-request-evidence"

def all : List ComponentName :=
  [method, targetUri, authority, path, status, contentDigest, contentType, contentLength,
    authorization, dpop, mcpMethod, mcpName, mcpProtocolVersion, mcpReDelegation,
    mcpReRequestEvidence]

/-- The `match` on the closed set: the component a text names. -/
def ofText (s : Str) : Option ComponentName :=
  all.find? fun n => n.text.toList == s

end ComponentName

/-- `CoveredComponent`: a name, and whether it is bound from the originating request (`;req`). -/
structure CoveredComponent where
  name : ComponentName
  req : Bool
  deriving DecidableEq, Repr

/-- `"name"` or `"name";req`. -/
def CoveredComponent.identifier (c : CoveredComponent) : Str :=
  '"' :: c.name.text.toList ++ '"' :: if c.req then ";req".toList else []

/-! ## Signature parameters -/

/-- `SignatureParams`, in the profile's normative order. -/
structure SignatureParams where
  created : Option I64
  expires : Option I64
  nonce : Option Str
  keyid : Option Str
  alg : Option Str
  tag : Option Str
  deriving DecidableEq, Repr

def SignatureParams.default : SignatureParams := ⟨none, none, none, none, none, none⟩

/-- Printable ASCII without `"` and `\`. -/
def isSfChar (c : Char) : Bool :=
  decide (0x20 ≤ c.toNat) && decide (c.toNat ≤ 0x7E) && c != '"' && c != '\\'

def validateSfString (value : Str) (what : String) : Verdict Unit :=
  ensure (value.all isSfChar) (.malformedEvidence what)

def maxNonceChars : Nat := 256

/-- `validate_nonce_length`: the length is in bytes. -/
def validateNonceLength (nonce : Str) : Verdict Unit :=
  ensure (decide ((utf8 nonce).length ≤ maxNonceChars))
    (.malformedEvidence "nonce signature parameter exceeds the length bound")

/-- `key=n`. -/
def integerSegment (key : String) (n : I64) : Str :=
  key.toList ++ '=' :: n.display

/-- `key="v"`. -/
def stringSegment (key : String) (v : Str) : Str :=
  key.toList ++ '=' :: ('"' :: v ++ ['"'])

/-- Append `;key=n` when the parameter is there. -/
def pushInteger (out : Str) (key : String) (v : Option I64) : Str :=
  match v with
  | none => out
  | some n => out ++ ';' :: integerSegment key n

/-- Check and append `;key="v"` when the parameter is there. -/
def pushString (out : Str) (key what : String) (check : Str → Verdict Unit) (v : Option Str) :
    Verdict Str :=
  match v with
  | none => .ok out
  | some s => do
    validateSfString s what
    check s
    .ok (out ++ ';' :: stringSegment key s)

/-- The inner list of identifiers, without its parentheses. -/
def innerList (components : List CoveredComponent) : Str :=
  [' '].intercalate (components.map CoveredComponent.identifier)

def SignatureParams.serializeWith (p : SignatureParams) (components : List CoveredComponent) :
    Verdict Str := do
  let out := '(' :: innerList components ++ [')']
  let out := pushInteger out "created" p.created
  let out := pushInteger out "expires" p.expires
  let out ← pushString out "nonce" "nonce signature parameter" validateNonceLength p.nonce
  let out ← pushString out "keyid" "keyid signature parameter" (fun _ => .ok ()) p.keyid
  let out ← pushString out "alg" "alg signature parameter" (fun _ => .ok ()) p.alg
  pushString out "tag" "tag signature parameter" (fun _ => .ok ()) p.tag

/-! ## Component values -/

/-- `SourceMessage`: the message a component value is resolved from. -/
inductive SourceMessage where
  | request (r : HttpRequest)
  | response (response : HttpResponse) (request : HttpRequest)
  | responseOnly (response : HttpResponse)

/-- The end of the authority in what follows `://`. -/
def isAuthorityEnd (c : Char) : Bool := c == '/' || c == '?' || c == '#'

def authorityOf (targetUri : Str) : Option Str := do
  let (_, rest) ← splitOnceAt "://".toList targetUri
  let authority := rest.takeWhile fun c => !isAuthorityEnd c
  if authority.isEmpty then none else some (authority.map Char.toLower)

/-- `path_of`: `/` when the URI names no path. -/
def pathOf (targetUri : Str) : Option Str := do
  let (_, rest) ← splitOnceAt "://".toList targetUri
  match rest.dropWhile fun c => !isAuthorityEnd c with
  | '/' :: cs => some ('/' :: cs.takeWhile fun c => !(c == '?' || c == '#'))
  | _ => some ['/']

/-- A field component: exactly-once lookup, trimmed. -/
def fieldComponent (headers : Headers) (name : ComponentName) : Verdict Str := do
  let found ← findField (.missingCoveredComponent name.text) name.text trim none headers
  okOr found (.missingCoveredComponent name.text)

/-- A component value of a request. -/
def requestComponent (r : HttpRequest) (name : ComponentName) : Verdict Str :=
  let missing := .missingCoveredComponent name.text
  match name with
  | .method => .ok r.method
  | .targetUri => .ok r.targetUri
  | .authority => okOr (authorityOf r.targetUri) missing
  | .path => okOr (pathOf r.targetUri) missing
  | .status => .error missing
  | name => fieldComponent r.headers name

/-- A component value of a response. -/
def responseComponent (rsp : HttpResponse) (name : ComponentName) : Verdict Str :=
  match name with
  | .status => .ok (Nat.toDigits 10 rsp.status.toNat)
  | .method | .targetUri | .authority | .path => .error (.missingCoveredComponent name.text)
  | name => fieldComponent rsp.headers name

/-- `resolve_component_value`: a `;req` component resolves against the originating request and is
missing where there is none. -/
def resolveComponentValue (c : CoveredComponent) : SourceMessage → Verdict Str
  | .request r =>
    if c.req then .error (.missingCoveredComponent c.name.text) else requestComponent r c.name
  | .response rsp r =>
    if c.req then requestComponent r c.name else responseComponent rsp c.name
  | .responseOnly rsp =>
    if c.req then .error (.missingCoveredComponent c.name.text) else responseComponent rsp c.name

/-- `component_value`: a value that could forge a line of the base is refused. -/
def componentValue (c : CoveredComponent) (source : SourceMessage) : Verdict Str := do
  let value ← resolveComponentValue c source
  ensure (value.all fun ch => !(ch == '\r' || ch == '\n'))
    (.malformedEvidence "covered component value contains CR or LF")
  .ok value

/-- One line of the base. -/
def componentLine (source : SourceMessage) (c : CoveredComponent) : Verdict Str := do
  let value ← componentValue c source
  .ok (c.identifier ++ ": ".toList ++ value)

/-- The `"@signature-params"` line up to its value. -/
def signatureParamsLabel : String := "\"@signature-params\": "

def signatureBase (components : List CoveredComponent) (params : SignatureParams)
    (source : SourceMessage) : Verdict Bytes := do
  let lines ← components.mapM (componentLine source)
  let value ← params.serializeWith components
  .ok (utf8 (['\n'].intercalate (lines ++ [signatureParamsLabel.toList ++ value])))

end McpRe.Http
