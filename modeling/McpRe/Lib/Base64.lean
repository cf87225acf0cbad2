import McpRe.Lib.Text

/-!
# Base64

The encodings of an alphabet of 64 characters, with or without padding, and the strict decoder:
padding is required exactly where the encoder writes it and the unused bits of the last character
are zero.

* `decode_encode`: what is encoded decodes to itself, for any alphabet that reads its own characters
  and not the padding;
* `encode_injective`: so two byte strings with the same text are the same;
* `mem_encode`: a text has characters of the alphabet and padding only.
-/

namespace Lib.Base64

open Lib.Text

/-- An alphabet with the reading of its characters. -/
structure Alphabet where
  char : Fin 64 → Char
  value : Char → Option (Fin 64)
  value_char : ∀ i, value (char i) = some i
  value_pad : value '=' = none
  /-- Is the text padded to a multiple of four characters? -/
  padded : Bool

/-- The character of the six-bit number `n % 64`. -/
def Alphabet.digit (a : Alphabet) (n : Nat) : Char :=
  a.char ⟨n % 64, Nat.mod_lt _ (by decide)⟩

/-- `n` padding characters, where the alphabet pads. -/
def Alphabet.padding (a : Alphabet) (n : Nat) : Str :=
  if a.padded then List.replicate n '=' else []

def encode (a : Alphabet) : Bytes → Str
  | [] => []
  | [x] => a.digit (x.toNat / 4) :: a.digit (x.toNat % 4 * 16) :: a.padding 2
  | [x, y] =>
    a.digit (x.toNat / 4) :: a.digit (x.toNat % 4 * 16 + y.toNat / 16)
      :: a.digit (y.toNat % 16 * 4) :: a.padding 1
  | x :: y :: z :: rest =>
    a.digit (x.toNat / 4) :: a.digit (x.toNat % 4 * 16 + y.toNat / 16)
      :: a.digit (y.toNat % 16 * 4 + z.toNat / 64) :: a.digit (z.toNat % 64) :: encode a rest

def byteOf (hi lo scale : Nat) : UInt8 := UInt8.ofNat (hi * scale + lo / (64 / scale))

def decodeTail (a : Alphabet) : Str → Option Bytes
  | [p, q] => do
    let p ← a.value p
    let q ← a.value q
    if q.val % 16 = 0 then some [byteOf p q 4] else none
  | [p, q, r] => do
    let p ← a.value p
    let q ← a.value q
    let r ← a.value r
    if r.val % 4 = 0 then some [byteOf p q 4, byteOf (q.val % 16) r 16] else none
  | _ => none

def decode (a : Alphabet) : Str → Option Bytes
  | [] => some []
  | p :: q :: r :: s :: rest =>
    if a.padded && rest.isEmpty && s == '=' then
      if r == '=' then decodeTail a [p, q] else decodeTail a [p, q, r]
    else do
      let p ← a.value p
      let q ← a.value q
      let r ← a.value r
      let s ← a.value s
      let bytes ← decode a rest
      some (byteOf p q 4 :: byteOf (q.val % 16) r 16 :: byteOf (r.val % 4) s 64 :: bytes)
  | tail => if a.padded then none else decodeTail a tail

section

variable (a : Alphabet)

theorem Alphabet.value_digit (n : Nat) :
    a.value (a.digit n) = some ⟨n % 64, Nat.mod_lt _ (by decide)⟩ :=
  a.value_char _

theorem Alphabet.digit_ne_pad (n : Nat) : a.digit n ≠ '=' := by
  intro h
  have := a.value_digit n
  rw [h, a.value_pad] at this
  cases this

theorem byteOf_eq {hi lo scale : Nat} {x : UInt8} (h : hi * scale + lo / (64 / scale) = x.toNat) :
    byteOf hi lo scale = x := by
  rw [byteOf, h]
  exact UInt8.ofNat_toNat

theorem decodeTail_one (x : UInt8) :
    decodeTail a [a.digit (x.toNat / 4), a.digit (x.toNat % 4 * 16)] = some [x] := by
  have hx := x.toNat_lt
  simp only [decodeTail, a.value_digit, Option.bind_eq_bind, Option.bind_some]
  rw [if_pos (by omega), byteOf_eq (x := x) (by omega)]

theorem decodeTail_two (x y : UInt8) :
    decodeTail a [a.digit (x.toNat / 4), a.digit (x.toNat % 4 * 16 + y.toNat / 16),
      a.digit (y.toNat % 16 * 4)] = some [x, y] := by
  have hx := x.toNat_lt
  have hy := y.toNat_lt
  simp only [decodeTail, a.value_digit, Option.bind_eq_bind, Option.bind_some]
  rw [if_pos (by omega), byteOf_eq (x := x) (by omega), byteOf_eq (x := y) (by omega)]

/-- **What is encoded decodes to itself.** -/
theorem decode_encode (bs : Bytes) : decode a (encode a bs) = some bs := by
  induction bs using encode.induct with
  | case1 => rfl
  | case2 x =>
    cases hpad : a.padded
    · simpa [encode, Alphabet.padding, decode, hpad] using decodeTail_one a x
    · simpa [encode, Alphabet.padding, decode, hpad] using decodeTail_one a x
  | case3 x y =>
    cases hpad : a.padded
    · simpa [encode, Alphabet.padding, decode, hpad] using decodeTail_two a x y
    · simpa [encode, Alphabet.padding, decode, hpad, a.digit_ne_pad] using decodeTail_two a x y
  | case4 x y z rest ih =>
    have hx := x.toNat_lt
    have hy := y.toNat_lt
    have hz := z.toNat_lt
    simp only [encode, decode, beq_iff_eq, Bool.and_eq_true, a.digit_ne_pad, and_false, if_false,
      a.value_digit, ih, Option.bind_eq_bind, Option.bind_some]
    rw [byteOf_eq (x := x) (by omega), byteOf_eq (x := y) (by omega),
      byteOf_eq (x := z) (by omega)]

theorem encode_injective : Function.Injective (encode a) := by
  intro bs cs h
  have := decode_encode a bs
  rw [h, decode_encode a cs] at this
  exact (Option.some.inj this).symm

theorem mem_padding {n : Nat} {c : Char} (h : c ∈ a.padding n) : c = '=' := by
  rw [Alphabet.padding] at h
  split_ifs at h
  · exact (List.mem_replicate.1 h).2
  · cases h

theorem mem_encode {bs : Bytes} {c : Char} (h : c ∈ encode a bs) : c = '=' ∨ ∃ i, c = a.char i := by
  have hdigit : ∀ n, ∃ i, a.digit n = a.char i := fun n => ⟨_, rfl⟩
  induction bs using encode.induct with
  | case1 => cases h
  | case2 x =>
    simp only [encode, List.mem_cons] at h
    rcases h with rfl | rfl | h
    · exact .inr (hdigit _)
    · exact .inr (hdigit _)
    · exact .inl (mem_padding a h)
  | case3 x y =>
    simp only [encode, List.mem_cons] at h
    rcases h with rfl | rfl | rfl | h
    · exact .inr (hdigit _)
    · exact .inr (hdigit _)
    · exact .inr (hdigit _)
    · exact .inl (mem_padding a h)
  | case4 x y z rest ih =>
    simp only [encode, List.mem_cons] at h
    rcases h with rfl | rfl | rfl | rfl | h
    · exact .inr (hdigit _)
    · exact .inr (hdigit _)
    · exact .inr (hdigit _)
    · exact .inr (hdigit _)
    · exact ih h

end

/-! ## The two alphabets of RFC 4648 -/

/-- Letters and digits, then the two characters at 62 and 63. -/
def charAt (c62 c63 : Char) (i : Fin 64) : Char :=
  if i.val < 26 then Char.ofNat (65 + i.val)
  else if i.val < 52 then Char.ofNat (71 + i.val)
  else if i.val < 62 then Char.ofNat (i.val - 4)
  else if i.val = 62 then c62 else c63

def valueOf (c62 c63 c : Char) : Option (Fin 64) :=
  if 65 ≤ c.toNat ∧ c.toNat ≤ 90 then some (Fin.ofNat 64 (c.toNat - 65))
  else if 97 ≤ c.toNat ∧ c.toNat ≤ 122 then some (Fin.ofNat 64 (c.toNat - 71))
  else if 48 ≤ c.toNat ∧ c.toNat ≤ 57 then some (Fin.ofNat 64 (c.toNat + 4))
  else if c = c62 then some 62
  else if c = c63 then some 63
  else none

def standard : Alphabet where
  char := charAt '+' '/'
  value := valueOf '+' '/'
  value_char := by decide
  value_pad := by decide
  padded := true

def urlSafeNoPad : Alphabet where
  char := charAt '-' '_'
  value := valueOf '-' '_'
  value_char := by decide
  value_pad := by decide
  padded := false

end Lib.Base64
