import McpRe.Lib.Numeral
import McpRe.Lib.Split

/-!
# Which addresses may be reached

The guard on a host that an attacker may have chosen
(`mcp-re-proxy/src/outbound_fetch/address.rs`): the classes of addresses, the loose `inet_aton` forms,
and the answer for a host.
-/

namespace McpRe.Outbound

open Lib Lib.Text

/-! ## Addresses -/

/-- `std::net::Ipv4Addr`, by its octets. -/
@[ext]
structure Ipv4Addr where
  a : UInt8
  b : UInt8
  c : UInt8
  d : UInt8
  deriving DecidableEq, Repr

namespace Ipv4Addr

/-- `Ipv4Addr::from` a `u32`: its bytes, the highest first. -/
def ofU32 (n : UInt32) : Ipv4Addr :=
  ⟨(n >>> 24).toUInt8, (n >>> 16).toUInt8, (n >>> 8).toUInt8, n.toUInt8⟩

def isLoopback (v4 : Ipv4Addr) : Bool := v4.a == 127

def isPrivate (v4 : Ipv4Addr) : Bool :=
  v4.a == 10 || (v4.a == 172 && decide (16 ≤ v4.b) && decide (v4.b ≤ 31))
    || (v4.a == 192 && v4.b == 168)

def isLinkLocal (v4 : Ipv4Addr) : Bool := v4.a == 169 && v4.b == 254

def isUnspecified (v4 : Ipv4Addr) : Bool := v4 == ⟨0, 0, 0, 0⟩

def isBroadcast (v4 : Ipv4Addr) : Bool := v4 == ⟨255, 255, 255, 255⟩

def isMulticast (v4 : Ipv4Addr) : Bool := decide (224 ≤ v4.a) && decide (v4.a ≤ 239)

end Ipv4Addr

/-- `std::net::Ipv6Addr`, by its segments. -/
structure Ipv6Addr where
  s0 : UInt16
  s1 : UInt16
  s2 : UInt16
  s3 : UInt16
  s4 : UInt16
  s5 : UInt16
  s6 : UInt16
  s7 : UInt16
  deriving DecidableEq, Repr

namespace Ipv6Addr

def isLoopback (v6 : Ipv6Addr) : Bool := v6 == ⟨0, 0, 0, 0, 0, 0, 0, 1⟩

def isUnspecified (v6 : Ipv6Addr) : Bool := v6 == ⟨0, 0, 0, 0, 0, 0, 0, 0⟩

def isMulticast (v6 : Ipv6Addr) : Bool := v6.s0 &&& 0xff00 == 0xff00

/-- `Ipv6Addr::to_ipv4`: the address inside a mapped or a compatible one. -/
def toIpv4 (v6 : Ipv6Addr) : Option Ipv4Addr :=
  if v6.s0 = 0 ∧ v6.s1 = 0 ∧ v6.s2 = 0 ∧ v6.s3 = 0 ∧ v6.s4 = 0 ∧ (v6.s5 = 0 ∨ v6.s5 = 0xffff) then
    some ⟨(v6.s6 >>> 8).toUInt8, v6.s6.toUInt8, (v6.s7 >>> 8).toUInt8, v6.s7.toUInt8⟩
  else none

end Ipv6Addr

def ipv4IsPublic (v4 : Ipv4Addr) : Bool :=
  !(v4.isLoopback || v4.isPrivate || v4.isLinkLocal || v4.isUnspecified || v4.isBroadcast
    || v4.isMulticast)

def ipv6IsPublic (v6 : Ipv6Addr) : Bool :=
  if v6.isLoopback || v6.isUnspecified || v6.isMulticast then false
  else match v6.toIpv4 with
    | some v4 => ipv4IsPublic v4
    | none =>
      if v6.s0 &&& 0xffc0 == 0xfe80 then false
      else if v6.s0 &&& 0xfe00 == 0xfc00 then false
      else true

/-! ## The standard parser -/

inductive IpAddr where
  | v4 (addr : Ipv4Addr)
  | v6 (addr : Ipv6Addr)

/-- The standard library's parser of IPv6 addresses, of which only this is used: an address has a
colon. -/
structure Ipv6Parser where
  parse : Str → Option Ipv6Addr
  colon_mem : ∀ {host : Str} {addr : Ipv6Addr}, parse host = some addr → ':' ∈ host

/-- One part of a strict dotted-decimal address: at most three digits, no leading zero, a byte. -/
def parseOctet (part : Str) : Option UInt8 :=
  if part ≠ [] ∧ part.length ≤ 3 ∧ part.all (Numeral.isDigit 10) = true
      ∧ (part.head? = some '0' → part.length = 1) ∧ Numeral.value 10 part < 256 then
    some (Numeral.value 10 part).toUInt8
  else none

/-- The standard library's strict parser of IPv4 addresses. -/
def parseIpv4 (host : Str) : Option Ipv4Addr :=
  match host.splitOn '.' with
  | [a, b, c, d] => do
    let a ← parseOctet a
    let b ← parseOctet b
    let c ← parseOctet c
    let d ← parseOctet d
    some ⟨a, b, c, d⟩
  | _ => none

/-- `str::parse::<IpAddr>`. -/
def parseIpAddr (std : Ipv6Parser) (host : Str) : Option IpAddr :=
  match parseIpv4 host with
  | some addr => some (.v4 addr)
  | none => (std.parse host).map .v6

/-! ## The loose forms -/

/-- The radix of a part, and its digits. -/
def radixOf (part : Str) : Nat × Str :=
  match (stripPrefix ['0', 'x'] part).or (stripPrefix ['0', 'X'] part) with
  | some hex => (16, hex)
  | none => if 1 < part.length ∧ part.head? = some '0' then (8, part.tail) else (10, part)

def parseInetAtonPart (part : Str) : Option Nat :=
  let (radix, digits) := radixOf part
  if digits.isEmpty then none
  else if digits.all (Numeral.isDigit radix) then Numeral.fromStrRadix radix (2 ^ 64) digits
  else none

/-- `u32::try_from` a `u64`. -/
def tryU32 (n : Nat) : Option UInt32 := if n < 2 ^ 32 then some n.toUInt32 else none

/-- The match on the values of the parts. -/
def combineParts : List Nat → Option UInt32
  | [rest] => tryU32 rest
  | [a, rest] =>
    if a ≤ 0xff then do
      let high ← tryU32 a
      let low ← (tryU32 rest).filter fun r => decide (r ≤ 0x00ffffff)
      some (high <<< 24 ||| low)
    else none
  | [a, b, rest] =>
    if a ≤ 0xff ∧ b ≤ 0xff then do
      let high ← tryU32 a
      let mid ← tryU32 b
      let low ← (tryU32 rest).filter fun r => decide (r ≤ 0x0000ffff)
      some (high <<< 24 ||| mid <<< 16 ||| low)
    else none
  | [a, b, c, rest] =>
    if a ≤ 0xff ∧ b ≤ 0xff ∧ c ≤ 0xff then do
      let high ← tryU32 a
      let mid ← tryU32 b
      let third ← tryU32 c
      let low ← (tryU32 rest).filter fun r => decide (r ≤ 0x000000ff)
      some (high <<< 24 ||| mid <<< 16 ||| third <<< 8 ||| low)
    else none
  | _ => none

def parseInetAtonIpv4 (host : Str) : Option Ipv4Addr :=
  if host.isEmpty then none
  else if 4 < (host.splitOn '.').length then none
  else do
    let vals ← (host.splitOn '.').mapM parseInetAtonPart
    let addr ← combineParts vals
    some (.ofU32 addr)

/-! ## The guard -/

def hostIsPublic (std : Ipv6Parser) (host : Str) : Bool :=
  if host.isEmpty || (host.splitOn '.').any List.isEmpty then false
  else if eqIgnoreAsciiCase host "localhost".toList then false
  else match parseIpAddr std host with
    | some (.v4 v4) => ipv4IsPublic v4
    | some (.v6 v6) => ipv6IsPublic v6
    | none =>
      match parseInetAtonIpv4 host with
      | some v4 => ipv4IsPublic v4
      | none => true

end McpRe.Outbound
