import McpRe.Http.SigBase
import McpRe.Lib.QuoteSplit

/-!
# Reading `Signature-Input`

The structured-field readers under `verify/floor`: the dictionary (`sf_dictionary.rs`), the inner
list of covered components (`covered_components.rs`), the parameter tail
(`signature_parameters.rs`) and the member value they make up (`signature_input.rs`).
-/

namespace McpRe.Http

open Lib Lib.Result Lib.Text Lib.QuoteSplit

/-- `HttpProfileError::MalformedEvidence`, the refusal of every reader here. -/
abbrev malformed (what : String) : HttpProfileError := .malformedEvidence what

/-! ## The dictionary -/

def splitDictionary (value : Str) : List Str := (pieces ',' value).map trim

def splitParameters (value : Str) : List Str := (pieces ';' value).map trim

/-- The loop of `member_value`, with the value `found` so far. -/
def findMember (label : Str) : Option Str → List Str → Verdict (Option Str)
  | found, [] => .ok found
  | found, member :: members =>
    if member.isEmpty then .error (malformed "empty dictionary member")
    else
      match (stripPrefix label member).bind (stripPrefix ['=']) with
      | none => findMember label found members
      | some v =>
        if found.isSome then .error (malformed "duplicate signature label")
        else if trim v ≠ v then .error (malformed "dictionary member spacing")
        else findMember label (some v) members

def memberValue (headerValue label : Str) : Verdict Str := do
  let found ← findMember label none (splitDictionary headerValue)
  okOr found (.missingEvidence "signature label")

/-! ## The inner list -/

/-- One item of the inner list: `"name"` or `"name";req`, of a known name. -/
def parseComponent (item : Str) : Verdict CoveredComponent := do
  let (namePart, req) :=
    match stripSuffix ";req".toList item with
    | some p => (p, true)
    | none => (item, false)
  let name ← okOr ((stripPrefix ['"'] namePart).bind (stripSuffix ['"']))
    (malformed "component identifier")
  let known ← okOr (ComponentName.ofText name) (malformed "unknown covered component")
  .ok ⟨known, req⟩

/-- The loop of `parse_covered_components`. -/
def collectComponents : List CoveredComponent → List Str → Verdict (List CoveredComponent)
  | components, [] => .ok components
  | components, item :: items => do
    let c ← parseComponent item
    ensure (!components.contains c) (malformed "duplicate covered component")
    collectComponents (components ++ [c]) items

/-- `parse_covered_components`: exactly single-space separated. -/
def parseCoveredComponents (list : Str) : Verdict (List CoveredComponent) := do
  ensure (!(list.head? == some ' ' || list.getLast? == some ' ' || containsText "  ".toList list))
    (malformed "inner list spacing")
  ensure (!list.contains '\t') (malformed "inner list spacing")
  collectComponents [] ((list.splitOn ' ').filter fun i => !i.isEmpty)

/-! ## The parameter tail -/

/-- The closed set of parameter keys. -/
inductive ParamKey where
  | created
  | expires
  | nonce
  | keyid
  | alg
  | tag
  deriving DecidableEq, Repr

namespace ParamKey

def text : ParamKey → String
  | created => "created"
  | expires => "expires"
  | nonce => "nonce"
  | keyid => "keyid"
  | alg => "alg"
  | tag => "tag"

def rank : ParamKey → Int
  | created => 0
  | expires => 1
  | nonce => 2
  | keyid => 3
  | alg => 4
  | tag => 5

def all : List ParamKey := [created, expires, nonce, keyid, alg, tag]

end ParamKey

/-- `parameter_rank`: the key a text spells; its rank is `ParamKey.rank`. -/
def parameterKey (key : Str) : Verdict ParamKey :=
  okOr (ParamKey.all.find? fun k => k.text.toList == key) (malformed "unknown signature parameter")

/-- `check_tail_spelling`: a leading `;`, no empty slot, and neither space nor tab outside a quoted
value. -/
def checkTailSpelling (paramTail : Str) : Verdict Unit :=
  if paramTail.isEmpty then .ok ()
  else do
    ensure (paramTail.head? == some ';') (malformed "signature parameter spacing")
    ensure (!(((splitParameters paramTail).drop 1).any fun seg => seg.isEmpty))
      (malformed "signature parameter spacing")
    ensure (noneOutside (fun c => c == ' ' || c == '\t') .outside paramTail)
      (malformed "signature parameter spacing")

def unquote (v : Str) : Verdict Str := do
  let inner ← okOr ((stripPrefix ['"'] v).bind (stripSuffix ['"']))
    (malformed "quoted signature parameter")
  validateSfString inner "quoted signature parameter"
  .ok inner

/-- `parse_i64`: no sign but `-`, no leading zero, no negative zero. -/
def parseI64 (s : Str) : Verdict I64 := do
  let refusal := malformed "integer signature parameter"
  let digits := (stripPrefix ['-'] s).getD s
  ensure (I64.isDigits digits) refusal
  ensure (I64.noLeadingZero digits) refusal
  ensure (!(s.head? == some '-' && digits == ['0'])) refusal
  okOr (I64.fromStr s) refusal

def assign (params : SignatureParams) (key : ParamKey) (v : Str) : Verdict SignatureParams :=
  match key with
  | .created => do
    let n ← parseI64 v
    .ok { params with created := some n }
  | .expires => do
    let n ← parseI64 v
    .ok { params with expires := some n }
  | .nonce => do
    let nonce ← unquote v
    validateNonceLength nonce
    .ok { params with nonce := some nonce }
  | .keyid => do
    let s ← unquote v
    .ok { params with keyid := some s }
  | .alg => do
    let s ← unquote v
    .ok { params with alg := some s }
  | .tag => do
    let s ← unquote v
    .ok { params with tag := some s }

/-- The loop of `parse_signature_parameters`, with the last rank seen. -/
def assignAll : SignatureParams → Int → List Str → Verdict SignatureParams
  | params, _, [] => .ok params
  | params, last, p :: ps =>
    if p.isEmpty then assignAll params last ps
    else do
      let (k, v) ← okOr (splitOnce '=' p) (malformed "signature parameter")
      let key ← parameterKey k
      ensure (decide (last < key.rank)) (malformed "signature parameter order")
      let params ← assign params key v
      assignAll params key.rank ps

def parseSignatureParameters (paramTail : Str) : Verdict SignatureParams := do
  checkTailSpelling paramTail
  assignAll .default (-1) (splitParameters paramTail)

/-! ## The member value -/

structure ParsedSignatureInput where
  components : List CoveredComponent
  params : SignatureParams
  deriving DecidableEq, Repr

/-- `parse_signature_input`: an inner list in parentheses, then the parameter tail. -/
def parseSignatureInput (value : Str) : Verdict ParsedSignatureInput :=
  match trim value with
  | '(' :: rest => do
    let (list, paramTail) ← okOr (splitOnce ')' rest) (malformed "inner list")
    let components ← parseCoveredComponents list
    let params ← parseSignatureParameters paramTail
    .ok ⟨components, params⟩
  | _ => .error (malformed "inner list")

def parseSignatureInputFor (headers : Headers) (label : Str) (what : String) :
    Verdict ParsedSignatureInput := do
  let inputHeader ← (requiredHeader headers "signature-input").mapError
    fun _ => .missingEvidence what
  let value ← memberValue inputHeader label
  parseSignatureInput value

end McpRe.Http
