import McpRe.Lib.Numeral

/-!
# RFC 3339 instants

The strict parser of UTC timestamps and its inverse (`mcp-re-core/src/time/mod.rs`, `format.rs`). The
values stay far inside an `i64`, so integers stand for it; its division rounds toward zero.
-/

namespace McpRe.Core

open Lib Lib.Text

/-- The error of `parse_rfc3339_utc`; of `McpReError` it has no other. -/
inductive McpReError where
  | expiredRequest
  deriving DecidableEq, Repr

/-! ## Days -/

/-- `DAYS_IN_MONTH`, of a common year. -/
def daysInMonth : List Int := [31, 28, 31, 30, 31, 30, 31, 31, 30, 31, 30, 31]

def isLeapYear (year : Int) : Bool :=
  (year.tmod 4 == 0 && year.tmod 100 != 0) || year.tmod 400 == 0

def daysFromCivil (year month day : Int) : Int :=
  let y := if month ≤ 2 then year - 1 else year
  let era := (if 0 ≤ y then y else y - 399).tdiv 400
  let yoe := y - era * 400
  let doy := (153 * (if 2 < month then month - 3 else month + 9) + 2).tdiv 5 + day - 1
  let doe := yoe * 365 + yoe.tdiv 4 - yoe.tdiv 100 + doy
  era * 146097 + doe - 719468

/-- `as u32`. -/
def asU32 (n : Int) : Int := n % 2 ^ 32

def civilFromDays (days : Int) : Int × Int × Int :=
  let z := days + 719468
  let era := (if 0 ≤ z then z else z - 146096).tdiv 146097
  let doe := z - era * 146097
  let yoe := (doe - doe.tdiv 1460 + doe.tdiv 36524 - doe.tdiv 146096).tdiv 365
  let y := yoe + era * 400
  let doy := doe - (365 * yoe + yoe.tdiv 4 - yoe.tdiv 100)
  let mp := (5 * doy + 2).tdiv 153
  let d := asU32 (doy - (153 * mp + 2).tdiv 5 + 1)
  let m := asU32 (if mp < 10 then mp + 3 else mp - 9)
  (if m ≤ 2 then y + 1 else y, m, d)

/-! ## Parsing -/

/-- An `i64` operation that is checked. -/
def checkedI64 (n : Int) : Option Int := if -2 ^ 63 ≤ n ∧ n ≤ 2 ^ 63 - 1 then some n else none

/-- The loop of `parse_fixed_digits`. -/
def readDigits : Int → Bytes → Option Int
  | value, [] => some value
  | value, b :: field => do
    let digit ← Numeral.toDigit 10 (Char.ofNat b.toNat)
    let shifted ← checkedI64 (value * 10)
    let value ← checkedI64 (shifted + digit)
    readDigits value field

def parseFixedDigits (bytes : Bytes) (start n : Nat) : Option Int :=
  if start ≤ bytes.length then
    if n ≤ (bytes.drop start).length then readDigits 0 ((bytes.drop start).take n) else none
  else none

/-- A byte literal. -/
def byteOf (c : Char) : UInt8 := c.toUInt8

/-- `u8::is_ascii_digit`. -/
def isAsciiDigit (b : UInt8) : Bool := decide (byteOf '0' ≤ b) && decide (b ≤ byteOf '9')

/-- What follows the seconds: `Z`, or a point, at least one digit, and `Z`. -/
def fractionOk (tail : Bytes) : Bool :=
  if tail = [byteOf 'Z'] then true
  else if tail.head? = some (byteOf '.') then
    let frac := tail.drop 1
    match frac.getLast? with
    | some last => last == byteOf 'Z' && !frac.dropLast.isEmpty && frac.dropLast.all isAsciiDigit
    | none => false
  else false

def parseRfc3339Utc (s : Str) : Except McpReError Int :=
  let bytes := utf8 s
  if bytes.length < 20 then .error .expiredRequest
  else if bytes[4]? ≠ some (byteOf '-') ∨ bytes[7]? ≠ some (byteOf '-')
      ∨ bytes[10]? ≠ some (byteOf 'T') ∨ bytes[13]? ≠ some (byteOf ':')
      ∨ bytes[16]? ≠ some (byteOf ':') then
    .error .expiredRequest
  else match parseFixedDigits bytes 0 4, parseFixedDigits bytes 5 2, parseFixedDigits bytes 8 2,
      parseFixedDigits bytes 11 2, parseFixedDigits bytes 14 2, parseFixedDigits bytes 17 2 with
    | some year, some month, some day, some hour, some minute, some second =>
      if fractionOk (bytes.drop 19) = false then .error .expiredRequest
      else if ¬(1 ≤ month ∧ month ≤ 12) then .error .expiredRequest
      else
        let maxDay := if month = 2 ∧ isLeapYear year then 29
          else daysInMonth.getD (month - 1).toNat 0
        if day < 1 ∨ maxDay < day then .error .expiredRequest
        else if 23 < hour ∨ 59 < minute ∨ 59 < second then .error .expiredRequest
        else .ok (daysFromCivil year month day * 86400 + hour * 3600 + minute * 60 + second)
    | _, _, _, _, _, _ => .error .expiredRequest

/-! ## Printing -/

/-- An integer printed to a width with zeros, behind its sign. -/
def padded (width : Nat) (n : Int) : Str :=
  if n < 0 then '-' :: (Nat.toDigits 10 n.natAbs).leftpad (width - 1) '0'
  else (Nat.toDigits 10 n.natAbs).leftpad width '0'

def unixToRfc3339Utc (unix : Int) : Str :=
  let days := unix / 86400
  let secs := unix % 86400
  let (year, month, day) := civilFromDays days
  let hh := secs.tdiv 3600
  let mm := (secs.tmod 3600).tdiv 60
  let ss := secs.tmod 60
  padded 4 year ++ '-' :: padded 2 month ++ '-' :: padded 2 day ++ 'T' :: padded 2 hh
    ++ ':' :: padded 2 mm ++ ':' :: padded 2 ss ++ ['Z']

end McpRe.Core
