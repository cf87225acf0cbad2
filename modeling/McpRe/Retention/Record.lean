import McpRe.Http.Chain

/-!
# What a retained exchange keeps

`transparency/covered_set.rs` and `transparency/retained_record.rs`: the headers a retained message
keeps are read out of its `Signature-Input` a second time, by a reader of its own, and the record an
auditor reconstructs a hop from carries them with the body in base64url.
-/

namespace McpRe.Retention

open Lib Lib.Result Lib.Text Lib.QuoteSplit
open McpRe.Http

/-- The `std::io::Error`s of the store, by their kind. -/
inductive IoError where
  | wouldBlock
  | brokenPipe
  | notFound
  | other
  deriving DecidableEq, Repr

/-- `RetentionError`. -/
inductive RetentionError where
  | store (e : IoError)
  | malformed (what : String)
  | alreadyCompleted
  | unresolved (e : IoError)
  | storeRetired (e : IoError)
  deriving DecidableEq, Repr

/-! ## The covered set -/

def toAsciiLowercase (s : Str) : Str := s.map Char.toLower

/-- `str::split_whitespace`. -/
def splitWhitespace (s : Str) : List Str :=
  (s.splitOnP isWhitespace).filter fun item => !item.isEmpty

/-- `dictionary_members`: a comma in a quoted string separates nothing. The members keep the
whitespace around them. -/
def dictionaryMembers (value : Str) : List Str := pieces ',' value

/-- What stands between the first `(` and the next `)`. -/
def parenthesized (rest : Str) : Option Str := do
  let (_, tail) ← splitOnce '(' rest
  let (list, _) ← splitOnce ')' tail
  some list

/-- The loop of `component_list_for`. -/
def listIn (label : Str) : List Str → Option Str
  | [] => none
  | member :: members =>
    match splitOnce '=' member with
    | none => listIn label members
    | some (name, rest) => if trim name ≠ label then listIn label members else parenthesized rest

def componentListFor (value label : Str) : Option Str := listIn label (dictionaryMembers value)

/-- `component_names`: the leading quoted token of each item. -/
def componentNames (list : Str) : List Str :=
  (splitWhitespace list).filterMap fun item => do
    let rest ← stripPrefix ['"'] item
    let (name, _) ← splitOnce '"' rest
    some name

/-- The header names of a component list: a derived component is not a header. -/
def headerNames (list : Str) : List Str :=
  ((componentNames list).filter fun c => c.head? != some '@').map toAsciiLowercase

/-- The names the loop of `covered_headers` collects from one header. -/
def namesOf (label : Str) (kv : Str × Str) : List Str :=
  if isField "signature-input" kv then ((componentListFor kv.2 label).map headerNames).getD []
  else []

/-- The filter of `covered_headers`: a covered header, or one that carries the signature itself. -/
def isKept (covered : List Str) (kv : Str × Str) : Bool :=
  let lower := toAsciiLowercase kv.1
  lower == "signature".toList || lower == "signature-input".toList || covered.contains lower

def coveredHeaders (headers : Headers) (label : Str) : Headers :=
  headers.filter (isKept (headers.flatMap (namesOf label)))

/-! ## The record -/

def retainedHopSchema : String := "mcp-re-retained-hop/v1"

structure RetainedRequest where
  method : Str
  targetUri : Str
  headers : Headers
  bodyB64 : Str
  deriving DecidableEq, Repr

structure RetainedResponse where
  status : UInt16
  headers : Headers
  bodyB64 : Str
  deriving DecidableEq, Repr

structure RetainedHopRecord where
  schema : Str
  request : RetainedRequest
  response : RetainedResponse
  deriving DecidableEq, Repr

def retainedRequest (request : HttpRequest) : RetainedRequest where
  method := request.method
  targetUri := request.targetUri
  headers := coveredHeaders request.headers requestLabel.toList
  bodyB64 := b64urlEncode request.body

namespace RetainedHopRecord

/-- `over`: the record of a projection its owner already holds. -/
def overRequest (request : RetainedRequest) (response : HttpResponse) : RetainedHopRecord where
  schema := retainedHopSchema.toList
  request := request
  response := {
    status := response.status
    headers := coveredHeaders response.headers responseLabel.toList
    bodyB64 := b64urlEncode response.body }

def of (request : HttpRequest) (response : HttpResponse) : RetainedHopRecord :=
  overRequest (retainedRequest request) response

def intoHop (record : RetainedHopRecord) : Except RetentionError RetainedHop := do
  ensure (record.schema == retainedHopSchema.toList) (.malformed "unknown retained-hop schema")
  let requestBody ← okOr (b64urlDecode record.request.bodyB64) (.malformed "request body encoding")
  let responseBody ← okOr (b64urlDecode record.response.bodyB64)
    (.malformed "response body encoding")
  .ok {
    request := {
      method := record.request.method
      targetUri := record.request.targetUri
      headers := record.request.headers
      body := requestBody }
    response := {
      status := record.response.status
      headers := record.response.headers
      body := responseBody } }

end RetainedHopRecord

end McpRe.Retention
