import McpRe.Lib.I64
import McpRe.Lib.Text

/-!
# The text of an audit record

One line for each record: fields `name=value` with a space between them (`audit_record/text.rs`),
every scalar escaped where it could break the line (`audit_record/scalar.rs`). `unescapeScalar` is
the inverse that the source keeps among its tests.
-/

namespace McpRe.Audit

open Lib Lib.Text

/-! ## Scalars -/

def isHazard (c : Char) : Bool :=
  let n := c.toNat
  (0x80 ≤ n && n ≤ 0x9F) || n == 0x2028 || n == 0x2029 || n == 0x061C || n == 0x200E
    || n == 0x200F || (0x202A ≤ n && n ≤ 0x202E) || (0x2066 ≤ n && n ≤ 0x2069) || n == 0xFEFF

def isEscapedChar (c : Char) : Bool :=
  c == '\\' || c == ' ' || c == '=' || decide (c.toNat < 0x20) || c.toNat == 0x7F || isHazard c

def isSeparatorFree (text : Str) : Bool :=
  !text.isEmpty && !(text.head? == some '-') && !text.any isEscapedChar

/-- `{:x}`. -/
def lowerHex (n : Nat) : Str := Nat.toDigits 16 n

/-- `{:02x}`. -/
def lowerHex2 (n : Nat) : Str :=
  List.replicate (2 - (lowerHex n).length) '0' ++ lowerHex n

/-- What stands for the character at a byte index of the value. -/
def escapeChar (index : Nat) (c : Char) : Str :=
  if c = '\\' then "\\\\".toList
  else if c = '\n' then "\\n".toList
  else if c = '\r' then "\\r".toList
  else if c = '\t' then "\\t".toList
  else if c = ' ' then "\\s".toList
  else if c = '=' then "\\e".toList
  else if c = '-' ∧ index = 0 then "\\x2d".toList
  else if c.toNat < 0x20 ∨ c.toNat = 0x7F then "\\x".toList ++ lowerHex2 c.toNat
  else if isHazard c then "\\u\x7b".toList ++ lowerHex c.toNat ++ "\x7d".toList
  else [c]

def escapeFrom : Nat → Str → Str
  | _, [] => []
  | index, c :: cs => escapeChar index c ++ escapeFrom (index + c.utf8Size) cs

def escapeScalar (value : Str) : Str := escapeFrom 0 value

/-- `char::to_digit(16)`. -/
def hexDigit (c : Char) : Option Nat :=
  if '0' ≤ c ∧ c ≤ '9' then some (c.toNat - 48)
  else if 'a' ≤ c ∧ c ≤ 'f' then some (c.toNat - 87)
  else if 'A' ≤ c ∧ c ≤ 'F' then some (c.toNat - 55)
  else none

def hexDigits : Nat → Str → Option Nat
  | acc, [] => some acc
  | acc, c :: cs => (hexDigit c).bind fun d => hexDigits (acc * 16 + d) cs

/-- `u32::from_str_radix(hex, 16)`: a sign is taken, and digits must follow. -/
def fromStrRadix16 (hex : Str) : Option Nat :=
  let digits := match hex with
    | '+' :: ds => ds
    | ds => ds
  if digits = [] then none else (hexDigits 0 digits).filter fun n => decide (n < 2 ^ 32)

/-- `char::from_u32`. -/
def fromU32 (n : Nat) : Option Char := if n.isValidChar then some (Char.ofNat n) else none

def decodeCodepoint (hex : Str) : Option Char := (fromStrRadix16 hex).bind fromU32

/-- Where the loop of `unescape_scalar` stands in the text. -/
inductive Reading where
  | text
  /-- After a backslash. -/
  | slash
  /-- After `x`. -/
  | byte
  /-- After `x` and a digit. -/
  | byteTail (h : Char)
  /-- After `u`. -/
  | brace
  /-- After the opening brace, with what was read since. -/
  | code (hex : Str)

def unescapeFrom : Reading → Str → Option Str
  | .text, [] => some []
  | .slash, [] | .byte, [] | .byteTail _, [] | .brace, [] | .code _, [] => none
  | .text, c :: cs =>
    if c = '\\' then unescapeFrom .slash cs
    else if c == ' ' || c == '=' || decide (c.toNat < 0x20) || c.toNat == 0x7F || isHazard c then none
    else (unescapeFrom .text cs).map (c :: ·)
  | .slash, e :: cs =>
    if e = '\\' then (unescapeFrom .text cs).map ('\\' :: ·)
    else if e = 'n' then (unescapeFrom .text cs).map ('\n' :: ·)
    else if e = 'r' then (unescapeFrom .text cs).map ('\r' :: ·)
    else if e = 't' then (unescapeFrom .text cs).map ('\t' :: ·)
    else if e = 's' then (unescapeFrom .text cs).map (' ' :: ·)
    else if e = 'e' then (unescapeFrom .text cs).map ('=' :: ·)
    else if e = 'x' then unescapeFrom .byte cs
    else if e = 'u' then unescapeFrom .brace cs
    else none
  | .byte, h :: cs => unescapeFrom (.byteTail h) cs
  | .byteTail h₁, h₂ :: cs =>
    (decodeCodepoint [h₁, h₂]).bind fun c => (unescapeFrom .text cs).map (c :: ·)
  | .brace, b :: cs => if b = '\x7b' then unescapeFrom (.code []) cs else none
  | .code hex, h :: cs =>
    if h = '\x7d' then (decodeCodepoint hex).bind fun c => (unescapeFrom .text cs).map (c :: ·)
    else unescapeFrom (.code (hex ++ [h])) cs

def unescapeScalar (rendered : Str) : Option Str := unescapeFrom .text rendered

/-! ## Records -/

def absent : Str := "-".toList

inductive AuditValue where
  | token (t : Str)
  | number (n : I64)
  | text (s : Str)
  | absent
  deriving DecidableEq

structure AuditField where
  name : Str
  value : AuditValue
  deriving DecidableEq

def pushVerbatimOrEscaped (out text : Str) : Str :=
  if isSeparatorFree text then out ++ text else out ++ escapeScalar text

/-- The arm of the loop for a value. -/
def pushValue (out : Str) : AuditValue → Str
  | .token t => pushVerbatimOrEscaped out t
  | .number n => out ++ n.display
  | .text s => out ++ escapeScalar s
  | .absent => out ++ absent

/-- One turn of the loop. -/
def pushField (out : Str) (field : AuditField) : Str :=
  let out := if !out.isEmpty then out ++ " ".toList else out
  pushValue (pushVerbatimOrEscaped out field.name ++ "=".toList) field.value

def renderRecord (fields : List AuditField) : Str := fields.foldl pushField []

end McpRe.Audit
