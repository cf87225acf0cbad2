import McpRe.Lib.I64
import McpRe.Lib.Lines
import McpRe.Lib.Result
import McpRe.Lib.Text

/-!
# Reading a reply

`parse_response` and its helpers of `response.rs`: the head up to the first empty line, its status
line and its header lines, and the check of the two headers that frame the body. How a text prints
under `{:?}` is a parameter.
-/

namespace McpRe.Transport

open Lib Lib.Text Lib.Result

inductive TransportError where
  | malformedResponse (message : Str)
  deriving DecidableEq

structure HttpResponseParts where
  status : Nat
  headers : List (Str × Str)
  body : Bytes
  deriving DecidableEq

def malformed {α : Type} (message : Str) : Except TransportError α :=
  .error (.malformedResponse message)

/-- RFC 9110 `tchar`. -/
def isTokenByte (b : UInt8) : Bool :=
  (48 ≤ b && b ≤ 57) || (65 ≤ b && b ≤ 90) || (97 ≤ b && b ≤ 122)
    || (utf8 ("!#$%&".toList ++ ['\'', '*', '+', '-', '.', '^', '_', '\x60', '|', '~'])).contains b

def toAsciiLowercase (s : Str) : Str := s.map Char.toLower

/-- `str::parse::<usize>`: a sign is taken. -/
def usizeFromStr : Str → Option Nat
  | '+' :: ds =>
    if I64.isDigits ds then some (Nat.ofDigitChars 10 ds 0) |>.filter (· < 2 ^ 64) else none
  | ds => if I64.isDigits ds then some (Nat.ofDigitChars 10 ds 0) |>.filter (· < 2 ^ 64) else none

variable (debug : Str → Str)

/-- One turn of the loop of `parse_header_block`. -/
def parseHeaderLine (line : Str) : Except TransportError (Str × Str) :=
  if line.head? = some ' ' ∨ line.head? = some '\t' then
    malformed "obs-fold header continuation".toList
  else if (utf8 line).any fun b => b == 13 || b == 10 then
    malformed "bare CR or LF in the header block".toList
  else
    match splitOnce ':' line with
    | none => malformed "header line without a colon".toList
    | some (name, value) =>
      if name.isEmpty || !(utf8 name).all isTokenByte then
        malformed ("header name is not an RFC 9110 token: ".toList ++ debug name)
      else .ok (toAsciiLowercase name, trim value)

def parseHeaderBlock (lines : List Str) : Except TransportError (List (Str × Str)) :=
  lines.mapM (parseHeaderLine debug)

def checkFraming (headers : List (Str × Str)) (bodyLen : Nat) : Except TransportError Unit :=
  if headers.any fun h => h.1 == "transfer-encoding".toList then
    malformed "transfer-encoding is not supported by this transport".toList
  else
    match headers.filter fun h => h.1 == "content-length".toList with
    | [] => .ok ()
    | [(_, value)] =>
      match usizeFromStr value with
      | none => malformed ("unparsable content-length: ".toList ++ debug value)
      | some declaredLen =>
        if declaredLen ≠ bodyLen then
          malformed ("content-length ".toList ++ Nat.toDigits 10 declaredLen
            ++ " disagrees with the ".toList ++ Nat.toDigits 10 bodyLen ++ " bytes received".toList)
        else .ok ()
    | _ :: _ :: _ => malformed "duplicate content-length".toList

def parseStatusLine (line : Str) : Except TransportError Nat :=
  match (stripPrefix "HTTP/1.1 ".toList line).or (stripPrefix "HTTP/1.0 ".toList line) with
  | none => malformed ("unrecognised status line: ".toList ++ debug line)
  | some rest =>
    -- three bytes that are a text of digits are three characters
    match rest with
    | d₁ :: d₂ :: d₃ :: tail =>
      if !I64.isDigits [d₁, d₂, d₃] then
        malformed ("status code is not three digits: ".toList ++ debug line)
      else if tail.head?.any fun c => c != ' ' then
        malformed ("status code is not delimited: ".toList ++ debug line)
      else
        match some (Nat.ofDigitChars 10 [d₁, d₂, d₃] 0) |>.filter (· < 2 ^ 16) with
        | some status => .ok status
        | none => malformed ("unparsable status code: ".toList ++ debug line)
    | _ => malformed ("status code is not three digits: ".toList ++ debug line)

def parseResponse (raw : Bytes) : Except TransportError HttpResponseParts := do
  let (headBytes, body) ← okOr (Lines.splitHead 13 10 raw)
    (.malformedResponse "no CRLFCRLF header terminator".toList)
  let head ← okOr (fromUtf8 headBytes)
    (.malformedResponse "header block is not valid UTF-8".toList)
  match Lines.split '\r' '\n' head with
  | [] => malformed "empty response".toList
  | statusLine :: lines =>
    let status ← parseStatusLine debug statusLine
    let headers ← parseHeaderBlock debug lines
    checkFraming debug headers body.length
    pure { status, headers, body }

end McpRe.Transport
