import McpRe.Http.Block
import McpRe.Http.Strip

/-!
# Blocks written into a body

`insert_meta_block` (`body/mod.rs`) writes a block under the top-level `_meta` of a body and prints
the whole body again. What printing would alter is refused first, by a scan of the bytes
(`body/representable.rs`): a member name that occurs twice in one object, and a number the
carrier of `serde_json` cannot hold (`body/carried_number.rs`, `body/decimal_token.rs`).
-/

namespace McpRe.Http

open Lib Lib.Result Lib.Text

/-- What the profile asks of `serde_json` beside parsing a document. -/
structure Serde where
  /-- `serde_json::to_vec` of a value. -/
  toVec : Json → Option Bytes
  /-- `serde_json::from_slice::<String>`. -/
  readString : Bytes → Option Str
  /-- `serde_json::from_str::<f64>`, and `serde_json::to_string` of the number when it is
  finite. -/
  emitDecimal : Str → Option Str

/-! ## Printed members -/

namespace Json

/-- A member of a printed structure. -/
def field (name : String) (value : Json) : Str × Json := (name.toList, value)

def ofU64 (n : Nat) : Json := .number (Nat.toDigits 10 n)

def ofI64 (n : I64) : Json := .number n.display

end Json

/-! ## Numbers -/

/-- An exact decimal: `digits * 10 ^ exponent`, with no zero at either end of the digits. -/
structure DecimalToken where
  negative : Bool
  digits : Str
  exponent : Int
  deriving DecidableEq, Repr

namespace DecimalToken

/-- An `i32`, by its range. -/
def i32 (n : Int) : Option Int :=
  if -2 ^ 31 ≤ n ∧ n < 2 ^ 31 then some n else none

/-- `str::parse::<i32>`. -/
def parseI32 (text : Str) : Option Int :=
  (I64.fromStr text).bind fun n => i32 n.val

/-- The loop over the trailing zeros: the digits, last one first, and the exponent. -/
def dropZeros : Str → Int → Option (Str × Int)
  | '0' :: rest, exponent => (i32 (exponent + 1)).bind (dropZeros rest)
  | reversed, exponent => some (reversed, exponent)

def normalized (negative : Bool) (digits : Str) (exponent : Int) : Option DecimalToken := do
  let (reversed, exponent) ← dropZeros (digits.dropWhile fun c => c == '0').reverse exponent
  if reversed.isEmpty then some ⟨false, [], 0⟩
  else some ⟨negative, reversed.reverse, exponent⟩

/-- `split_once(['e', 'E'])`: the significand, and the exponent's text. -/
def splitExponent (text : Str) : Str × Option Str :=
  let isMark (c : Char) : Bool := c == 'e' || c == 'E'
  (text.takeWhile fun c => !isMark c, (text.dropWhile fun c => !isMark c).tail?)

def parse (text : Str) : Option DecimalToken := do
  let (negative, unsigned) := match stripPrefix ['-'] text with
    | some rest => (true, rest)
    | none => (false, (stripPrefix ['+'] text).getD text)
  let (significand, exponentText) := splitExponent unsigned
  let exponent ← match exponentText with
    | some text => parseI32 text
    | none => some 0
  let (integer, fraction) := (splitOnce '.' significand).getD (significand, [])
  if integer.isEmpty && fraction.isEmpty then none
  else if !(integer ++ fraction).all Char.isDigit then none
  else do
    let scale ← i32 fraction.length
    normalized negative (integer ++ fraction) (← i32 (exponent - scale))

end DecimalToken

def decimalSurvivesTheF64Carrier (sd : Serde) (text : Str) : Bool :=
  match sd.emitDecimal text with
  | none => false
  | some emitted =>
    match DecimalToken.parse text, DecimalToken.parse emitted with
    | some received, some emitted => received == emitted
    | _, _ => false

/-- `str::parse::<u64>`. -/
def parseU64 (text : Str) : Option Nat :=
  let digits := (stripPrefix ['+'] text).getD text
  if I64.isDigits digits && decide (Nat.ofDigitChars 10 digits 0 < 2 ^ 64) then
    some (Nat.ofDigitChars 10 digits 0)
  else none

/-- A byte literal. -/
def byte (c : Char) : UInt8 := c.toUInt8

def isDigitByte (b : UInt8) : Bool := decide (byte '0' ≤ b) && decide (b ≤ byte '9')

def isNumberByte (b : UInt8) : Bool :=
  isDigitByte b || ['-', '+', '.', 'e', 'E'].any fun c => b == byte c

/-- `scan_number`, on the token its loop collects. -/
def scanNumber (sd : Serde) (token : Bytes) : Verdict Unit := do
  let text ← okOr (fromUtf8 token) (malformed "body json")
  if token.any fun b => ['.', 'e', 'E'].any fun c => b == byte c then
    ensure (decimalSurvivesTheF64Carrier sd text)
      (malformed "body carries a number this profile cannot sign without altering it")
  else
    ensure ((I64.fromStr text).isSome || (parseU64 text).isSome)
      (malformed "body carries an integer this profile cannot sign without altering it")

/-! ## Member names -/

/-- One frame per open composite, the innermost first: the names seen so far in an object, `none`
for an array. -/
abbrev Frames := List (Option (List Str))

/-- `decoded_member_name`. -/
def decodedMemberName (sd : Serde) (raw : Bytes) : Verdict Str :=
  if raw.contains (byte '\\') then
    okOr (sd.readString (byte '"' :: raw ++ [byte '"'])) (malformed "body json")
  else okOr (fromUtf8 raw) (malformed "body json")

/-- The walk of `scan_string` behind an opening quote: the bytes up to the closing quote, and what
follows it. An escape skips the byte it escapes. -/
def splitString : Bytes → Bytes × Bytes
  | [] => ([], [])
  | [b] => if b == byte '"' then ([], []) else ([b], [])
  | b :: c :: rest =>
    if b == byte '"' then ([], c :: rest)
    else if b == byte '\\' then (b :: c :: (splitString rest).1, (splitString rest).2)
    else (b :: (splitString (c :: rest)).1, (splitString (c :: rest)).2)

/-- `u8::is_ascii_whitespace`. -/
def isAsciiWhitespace (b : UInt8) : Bool := [9, 10, 12, 13, 32].contains b

/-- The frames after the string `raw` with `after` behind it: a member name is recorded in the
innermost object. -/
def scanString (sd : Serde) (frames : Frames) (raw after : Bytes) : Verdict Frames :=
  if (after.dropWhile isAsciiWhitespace).head? == some (byte ':') then do
    let name ← decodedMemberName sd raw
    match frames with
    | some names :: outer => do
      ensure (!names.contains name) (malformed "body object has a duplicate member name")
      .ok (some (name :: names) :: outer)
    | frames => .ok frames
  else .ok frames

/-! ## The scan -/

theorem length_splitString_le (bytes : Bytes) : (splitString bytes).2.length ≤ bytes.length := by
  fun_induction splitString bytes with
  | case1 => exact le_rfl
  | case2 b h => exact Nat.zero_le _
  | case3 b h => exact Nat.zero_le _
  | case4 b c rest h => simp
  | case5 b c rest h he ih => simp only [List.length_cons]; omega
  | case6 b c rest h he ih => simp only [List.length_cons] at ih ⊢; omega

/-- The loop of `reject_unrepresentable_json`, from some byte on. -/
def rejectUnrepresentableFrom (sd : Serde) (frames : Frames) : Bytes → Verdict Unit
  | [] => .ok ()
  | b :: rest =>
    if b == byte '"' then do
      let frames ← scanString sd frames (splitString rest).1 (splitString rest).2
      rejectUnrepresentableFrom sd frames (splitString rest).2
    else if b == byte '-' || isDigitByte b then do
      scanNumber sd (b :: rest.takeWhile isNumberByte)
      rejectUnrepresentableFrom sd frames (rest.dropWhile isNumberByte)
    else if b == byte '\x7b' then rejectUnrepresentableFrom sd (some [] :: frames) rest
    else if b == byte '[' then rejectUnrepresentableFrom sd (none :: frames) rest
    else if b == byte '\x7d' || b == byte ']' then rejectUnrepresentableFrom sd frames.tail rest
    else rejectUnrepresentableFrom sd frames rest
termination_by bytes => bytes.length
decreasing_by
  · have := length_splitString_le rest
    simp only [List.length_cons]
    omega
  · have := List.length_dropWhile_le isNumberByte rest
    simp only [List.length_cons]
    omega
  all_goals simp

def rejectUnrepresentableJson (sd : Serde) (body : Bytes) : Verdict Unit :=
  rejectUnrepresentableFrom sd [] body

/-! ## The block -/

/-- `Map::insert`: the map is kept in the order of its keys. -/
def Members.insert (key : Str) (value : Json) : Members → Members
  | [] => [(key, value)]
  | kv :: rest =>
    if kv.1 == key then (key, value) :: rest
    else if key < kv.1 then (key, value) :: kv :: rest
    else kv :: Members.insert key value rest

/-- `insert_meta_block`, of a block already turned into a value. -/
def insertMetaBlock (P : Platform) (sd : Serde) (body : Bytes) (key : String) (block : Json) :
    Verdict Bytes := do
  let root ← okOr (P.fromSlice body) (malformed "body json")
  rejectUnrepresentableJson sd body
  match root with
  | .object obj =>
    match (root.get "_meta").getD (.object []) with
    | .object found =>
      let found := Members.insert key.toList block found
      okOr (sd.toVec (.object (Members.insert "_meta".toList (.object found) obj)))
        (malformed "body reserialize")
    | _ => .error (malformed "_meta not an object")
  | _ => .error (malformed "body not a json object")

end McpRe.Http
