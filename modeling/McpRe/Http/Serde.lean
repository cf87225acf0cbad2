import McpRe.Http.Digest
import McpRe.Lib.I64

/-!
# Typed reading of JSON

What `#[derive(Deserialize)]` generates for the wire types of the profile. Every structure there is
`deny_unknown_fields`, and every `Option` member carries `#[serde(default)]`. A failed reading is
`none`: the profile never looks at which error `serde` gave.
-/

namespace McpRe.Http.Json

open Lib Lib.Text

variable {α : Type}

/-- A member of a structure. -/
structure Member where
  name : String
  /-- `#[serde(default)]`. -/
  defaulted : Bool

/-- A member that must be present. -/
def Member.need (name : String) : Member := ⟨name, false⟩

/-- A member that may be left out. -/
def Member.may (name : String) : Member := ⟨name, true⟩

/-- The lookup of a structure's members. An object gives them by name, each at most once and no
others; an array gives them by position and may end before members that have a default. -/
def members (spec : List Member) : Json → Option (String → Option Json)
  | object fields =>
    if (fields.map Prod.fst).Nodup ∧ ∀ kv ∈ fields, kv.1 ∈ spec.map fun m => m.name.toList then
      some fun name => (object fields).get name
    else none
  | array items =>
    if items.length ≤ spec.length ∧ ∀ m ∈ spec.drop items.length, m.defaulted = true then
      some fun name => items[spec.findIdx fun m => m.name == name]?
    else none
  | _ => none

/-- The reading of a member that must be present. -/
def needed (read : Json → Option α) (value : Option Json) : Option α :=
  value.bind read

/-- The reading of an `Option` member: absent and `null` are both `None`. -/
def optional (read : Json → Option α) : Option Json → Option (Option α)
  | none => some none
  | some null => some none
  | some value => (read value).map some

/-- `Vec<T>`. -/
def vec (read : Json → Option α) : Json → Option (List α)
  | array items => items.mapM read
  | _ => none

/-- An enumeration of unit variants: the token alone, or as the only key of an object over
`null`. -/
def variant (tokens : List (String × α)) : Json → Option α
  | string s => (tokens.find? fun t => t.1.toList == s).map Prod.snd
  | object [(s, null)] => (tokens.find? fun t => t.1.toList == s).map Prod.snd
  | _ => none

/-- `i64`. The text `-0` is a float to `serde_json`. -/
def asI64 : Json → Option I64
  | number text => if text = ['-', '0'] then none else I64.fromStr text
  | _ => none

/-- `u64`. -/
def asU64 : Json → Option Nat
  | number text =>
    if I64.isDigits text && decide (Nat.ofDigitChars 10 text 0 < 2 ^ 64) then
      some (Nat.ofDigitChars 10 text 0)
    else none
  | _ => none

end McpRe.Http.Json
