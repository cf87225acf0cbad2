import McpRe.Lib.Numeral
import McpRe.Lib.Split

/-!
# The locator projection

What an operator may see of a configured locator (`mcp-re-operator-display/src/locator.rs`): scheme,
host and port, and which other components were taken out.
-/

namespace McpRe.Display

open Lib Lib.Text

def unparseable : Str := "<unparseable>".toList

def noAuthority : Str := "<no-authority>".toList

/-- The text between a scheme and an authority. -/
def schemeMark : Str := [':', '/', '/']

def isScheme : Str → Bool
  | [] => false
  | c :: cs => c.isAlpha && cs.all fun c => c.isAlphanum || c == '+' || c == '-' || c == '.'

def isPort (port : Str) : Bool :=
  !port.isEmpty && port.all Char.isDigit && (Numeral.fromStrRadix 10 (2 ^ 16) port).isSome

def portSuffix (after : Str) : Option Str :=
  if after.isEmpty then some []
  else do
    let port ← stripPrefix [':'] after
    if isPort port then some (':' :: port) else none

def routingCoordinates (hostPort : Str) : Option Str :=
  match stripPrefix ['['] hostPort with
  | some afterBracket => do
    let (literal, after) ← splitOnce ']' afterBracket
    let ipv6 := !literal.isEmpty
      && literal.all fun c => Numeral.isDigit 16 c || c == ':' || c == '.'
    if ipv6 then
      let suffix ← portSuffix after
      some ('[' :: literal ++ ']' :: suffix)
    else none
  | none =>
    let (host, port) := match rsplitOnce ':' hostPort with
      | some (host, port) => (host, some port)
      | none => (hostPort, none)
    let named := !host.isEmpty
      && host.all fun c => c.isAlphanum || c == '.' || c == '-' || c == '_'
    if named then
      match port with
      | none => some host
      | some port => if isPort port then some (host ++ ':' :: port) else none
    else none

/-- What was taken out, in a stable order. -/
def removed (userinfoPresent : Bool) (tail : Str) : Str :=
  let (beforeFragment, fragment) := splitOff '#' tail
  let (path, query) := splitOff '?' beforeFragment
  let components :=
    (if userinfoPresent then ["userinfo removed".toList] else [])
      ++ (if path.any (· != '/') then ["path removed".toList] else [])
      ++ (if query.isSome then ["query removed".toList] else [])
      ++ (if fragment.isSome then ["fragment removed".toList] else [])
  if components.isEmpty then []
  else " (".toList ++ ", ".toList.intercalate components ++ ")".toList

/-- What ends an authority. -/
def endsAuthority (c : Char) : Bool := c == '/' || c == '?' || c == '#'

/-- Whether user information is present, and the host and port behind it. -/
def splitUserinfo (authority : Str) : Bool × Str :=
  match rsplitOnce '@' authority with
  | some (_, afterAt) => (true, afterAt)
  | none => (false, authority)

def project (raw : Str) : Str :=
  match splitOnceAt schemeMark raw with
  | none => if (stripPrefix ['/'] raw).isSome then noAuthority else unparseable
  | some (scheme, rest) =>
    if isScheme scheme then
      let authority := rest.takeWhile fun c => !endsAuthority c
      if authority.isEmpty then noAuthority
      else
        let (userinfoPresent, hostPort) := splitUserinfo authority
        match routingCoordinates hostPort with
        | none => unparseable
        | some coordinates =>
          scheme ++ schemeMark ++ coordinates
            ++ removed userinfoPresent (rest.drop authority.length)
    else unparseable

/-- `RedactedLocator`: the text that is shown, made by `RedactedLocator::of` only. -/
structure RedactedLocator where
  shown : Str
  deriving DecidableEq

def RedactedLocator.of (raw : Str) : RedactedLocator := ⟨project raw⟩

end McpRe.Display
