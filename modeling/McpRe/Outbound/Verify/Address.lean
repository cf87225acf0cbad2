import McpRe.Outbound.Address

/-!
# The guard sees every numeric spelling

A `Spelling` is a text of one to four numerals, decimal, octal or hexadecimal, each within its field.
The loose parser reads exactly the spellings, each as the address it denotes
(`parseInetAtonIpv4_eq_some`), and the strict parser reads some of them, as the same address; so the
guard answers for a spelling as for its address.

* `host_is_public_of_spelling`: the guard on a spelling, and the loose parser on everything else.
-/

namespace McpRe.Outbound

open Lib Lib.Text

/-! ## Numerals -/

/-- How a numeral is written. -/
inductive Form where
  | decimal
  | octal
  | hex (upper : Bool)
  deriving DecidableEq, Repr

namespace Form

def radix : Form → Nat
  | decimal => 10
  | octal => 8
  | hex _ => 16

def mark : Form → Str
  | decimal => []
  | octal => ['0']
  | hex false => ['0', 'x']
  | hex true => ['0', 'X']

end Form

/-- A numeral: digits of its form, and no leading zero in a decimal one. -/
structure Part where
  form : Form
  digits : Str
  digits_ne_nil : digits ≠ []
  digits_all : digits.all (Numeral.isDigit form.radix) = true
  no_leading_zero : form = .decimal → digits.head? = some '0' → digits = ['0']

namespace Part

def text (p : Part) : Str := p.form.mark ++ p.digits

def value (p : Part) : Nat := Numeral.value p.form.radix p.digits

end Part

/-- One to four numerals: all but the last a byte, and the last within the bytes that are left. -/
structure Spelling where
  init : List Part
  last : Part
  length_le : init.length ≤ 3
  init_le : ∀ p ∈ init, p.value ≤ 255
  last_lt : last.value < 256 ^ (4 - init.length)

def joined (init : List Nat) (last : Nat) : Nat :=
  init.foldl (fun acc v => acc * 256 + v) 0 * 256 ^ (4 - init.length) + last

/-- The address with a number. -/
def Ipv4Addr.ofNat (n : Nat) : Ipv4Addr :=
  ⟨(n / 2 ^ 24).toUInt8, (n / 2 ^ 16).toUInt8, (n / 2 ^ 8).toUInt8, n.toUInt8⟩

namespace Spelling

def text (s : Spelling) : Str := ['.'].intercalate ((s.init ++ [s.last]).map Part.text)

def value (s : Spelling) : Nat := joined (s.init.map Part.value) s.last.value

def address (s : Spelling) : Ipv4Addr := .ofNat s.value

end Spelling

/-! ## Characters -/

theorem isDigit_mono {r r' : Nat} (h : r ≤ r') {c : Char} (hc : Numeral.isDigit r c = true) :
    Numeral.isDigit r' c = true := by
  unfold Numeral.isDigit Numeral.toDigit at hc ⊢
  simp only [Option.isSome_filter, Option.any_eq_true, decide_eq_true_eq] at hc ⊢
  obtain ⟨d, hd, hlt⟩ := hc
  exact ⟨d, hd, by omega⟩

theorem radix_le (form : Form) : form.radix ≤ 16 := by
  cases form with
  | decimal => exact (by decide : 10 ≤ 16)
  | octal => exact (by decide : 8 ≤ 16)
  | hex upper => exact le_refl 16

theorem mem_text {p : Part} {c : Char} (h : c ∈ p.text) :
    Numeral.isDigit 16 c = true ∨ c = 'x' ∨ c = 'X' := by
  rcases List.mem_append.1 h with hmark | hdigit
  · have hmarks : ∀ form : Form, c ∈ form.mark → c = '0' ∨ c = 'x' ∨ c = 'X' := by
      rintro (_ | _ | _ | _) hc <;> simp [Form.mark] at hc <;> tauto
    rcases hmarks p.form hmark with rfl | hx
    · exact .inl (by decide)
    · exact .inr hx
  · exact .inl (isDigit_mono (radix_le p.form) (List.all_eq_true.1 p.digits_all c hdigit))

theorem dot_notMem_text (p : Part) : '.' ∉ p.text := by
  intro h
  rcases mem_text h with hdigit | hx | hX
  · exact absurd hdigit (by decide)
  · cases hx
  · cases hX

theorem text_ne_nil (p : Part) : p.text ≠ [] := by
  intro h
  exact p.digits_ne_nil (List.append_eq_nil_iff.1 h).2

theorem eq_of_toLower_eq {c : Char} (h : c.toLower = 'l') : c = 'l' ∨ c = 'L' := by
  unfold Char.toLower at h
  split_ifs at h with hupper
  · right
    have hval : c.val + ('a'.val - 'A'.val) = 'l'.val := congrArg Char.val h
    have hsub : c.val = 'l'.val - ('a'.val - 'A'.val) := by rw [← hval, UInt32.add_sub_cancel]
    exact Char.ext hsub
  · exact .inl h

/-! ## Parts -/

theorem stripPrefix_mark_eq_none {m c : Char} {digits : Str} {radix : Nat} {rest : Str}
    (hdigits : digits.all (Numeral.isDigit radix) = true) (hm : Numeral.isDigit radix m = false) :
    stripPrefix (c :: m :: rest) digits = none := by
  rw [Option.eq_none_iff_forall_ne_some]
  intro t ht
  rw [stripPrefix_eq_some] at ht
  have hmem : m ∈ digits := by rw [ht]; simp
  rw [List.all_eq_true.1 hdigits m hmem] at hm
  cases hm

theorem radixOf_text (p : Part) : radixOf p.text = (p.form.radix, p.digits) := by
  obtain ⟨form, digits, hne, hall, hzero⟩ := p
  cases form with
  | decimal =>
    have hx : stripPrefix ['0', 'x'] digits = none :=
      stripPrefix_mark_eq_none hall (by decide)
    have hX : stripPrefix ['0', 'X'] digits = none :=
      stripPrefix_mark_eq_none hall (by decide)
    have hoctal : ¬(1 < digits.length ∧ digits.head? = some '0') := by
      rintro ⟨hlong, hhead⟩
      rw [hzero rfl hhead] at hlong
      exact absurd hlong (by decide)
    change radixOf digits = (10, digits)
    unfold radixOf
    rw [hx, hX]
    exact if_neg hoctal
  | octal =>
    -- a digit, and not a hexadecimal mark, follows the zero
    have hnone : ∀ m, Numeral.isDigit 8 m = false → stripPrefix ['0', m] ('0' :: digits) = none := by
      intro m hm
      rw [Option.eq_none_iff_forall_ne_some]
      intro t ht
      rw [stripPrefix_eq_some] at ht
      have hmem : m ∈ digits := by rw [(List.cons.inj ht).2]; simp
      exact absurd (List.all_eq_true.1 hall m hmem) (Bool.eq_false_iff.1 hm)
    have hlong : 1 < ('0' :: digits).length := by
      have := List.length_pos_iff.2 hne
      rw [List.length_cons]
      omega
    change radixOf ('0' :: digits) = (8, digits)
    unfold radixOf
    rw [hnone 'x' (by decide), hnone 'X' (by decide)]
    exact if_pos ⟨hlong, rfl⟩
  | hex upper =>
    cases upper with
    | false => rfl
    | true => rfl

theorem exists_part {part : Str} (hne : (radixOf part).2 ≠ [])
    (hall : (radixOf part).2.all (Numeral.isDigit (radixOf part).1) = true) :
    ∃ p : Part, p.text = part := by
  unfold radixOf at hne hall
  cases hhex : (stripPrefix ['0', 'x'] part).or (stripPrefix ['0', 'X'] part) with
  | some digits =>
    rw [hhex] at hne hall
    rcases Option.or_eq_some_iff.1 hhex with hx | ⟨-, hX⟩
    · exact ⟨⟨.hex false, digits, hne, hall, nofun⟩, (stripPrefix_eq_some.1 hx).symm⟩
    · exact ⟨⟨.hex true, digits, hne, hall, nofun⟩, (stripPrefix_eq_some.1 hX).symm⟩
  | none =>
    rw [hhex] at hne hall
    dsimp only at hne hall
    by_cases hoctal : 1 < part.length ∧ part.head? = some '0'
    · rw [if_pos hoctal] at hne hall
      refine ⟨⟨.octal, part.tail, hne, hall, nofun⟩, ?_⟩
      exact List.cons_head?_tail hoctal.2
    · rw [if_neg hoctal] at hne hall
      refine ⟨⟨.decimal, part, hne, hall, fun _ hhead => ?_⟩, rfl⟩
      have hone : part.length ≤ 1 := by
        by_contra hlong
        exact hoctal ⟨by omega, hhead⟩
      rw [List.eq_cons_of_mem_head? hhead] at hone ⊢
      rw [List.length_cons] at hone
      rw [List.length_eq_zero_iff.1 (by omega : part.tail.length = 0)]

theorem parseInetAtonPart_text (p : Part) :
    parseInetAtonPart p.text = if p.value < 2 ^ 64 then some p.value else none := by
  have hne : p.digits.isEmpty = false := by simpa using p.digits_ne_nil
  unfold parseInetAtonPart
  rw [radixOf_text]
  dsimp only
  rw [hne, if_neg (by decide), if_pos p.digits_all,
    Numeral.fromStrRadix_of_digits p.digits_ne_nil p.digits_all]
  rfl

theorem parseInetAtonPart_eq_some {part : Str} {v : Nat} :
    parseInetAtonPart part = some v ↔ ∃ p : Part, p.text = part ∧ p.value = v ∧ v < 2 ^ 64 := by
  constructor
  · intro h
    have hpart : ∃ p : Part, p.text = part := by
      unfold parseInetAtonPart at h
      dsimp only at h
      split_ifs at h with hempty hall
      exact exists_part (by simpa using hempty) hall
    obtain ⟨p, rfl⟩ := hpart
    rw [parseInetAtonPart_text] at h
    split_ifs at h with hlt
    obtain rfl : p.value = v := Option.some.inj h
    exact ⟨p, rfl, rfl, hlt⟩
  · rintro ⟨p, rfl, rfl, hlt⟩
    rw [parseInetAtonPart_text, if_pos hlt]

theorem mapM_parse_eq_some {texts : List Str} {vals : List Nat} :
    texts.mapM parseInetAtonPart = some vals ↔
      ∃ ps : List Part, ps.map Part.text = texts ∧ ps.map Part.value = vals ∧
        ∀ p ∈ ps, p.value < 2 ^ 64 := by
  induction texts generalizing vals with
  | nil =>
    constructor
    · intro h
      cases h
      exact ⟨[], rfl, rfl, nofun⟩
    · rintro ⟨ps, htexts, rfl, -⟩
      rw [List.map_eq_nil_iff.1 htexts]
      rfl
  | cons text texts ih =>
    rw [List.mapM_cons]
    simp only [Option.bind_eq_bind, Option.bind_eq_some_iff, Option.pure_def, Option.some.injEq, ih,
      parseInetAtonPart_eq_some]
    constructor
    · rintro ⟨v, ⟨p, rfl, rfl, hlt⟩, vs, ⟨ps, rfl, rfl, hlts⟩, rfl⟩
      exact ⟨p :: ps, rfl, rfl, List.forall_mem_cons.2 ⟨hlt, hlts⟩⟩
    · rintro ⟨ps, htexts, rfl, hlts⟩
      obtain ⟨p, ps, rfl, rfl, rfl⟩ := List.map_eq_cons_iff.1 htexts
      obtain ⟨hlt, hlts⟩ := List.forall_mem_cons.1 hlts
      exact ⟨p.value, ⟨p, rfl, rfl, hlt⟩, ps.map Part.value, ⟨ps, rfl, rfl, hlts⟩, rfl⟩

/-! ## Fields -/

theorem tryU32_eq_some {n : Nat} {u : UInt32} : tryU32 n = some u ↔ u.toNat = n := by
  unfold tryU32
  constructor
  · intro h
    split_ifs at h with hlt
    cases h
    exact Nat.mod_eq_of_lt hlt
  · rintro rfl
    rw [if_pos u.toNat_lt, Nat.toUInt32_eq, UInt32.ofNat_toNat]

theorem toNat_toUInt32 {n : Nat} (h : n < 2 ^ 32) : n.toUInt32.toNat = n :=
  Nat.mod_eq_of_lt h

theorem toNat_shiftLeft_of_lt {u : UInt32} {k : Nat} (hk : k < 32) (h : u.toNat * 2 ^ k < 2 ^ 32) :
    (u <<< (UInt32.ofNat k)).toNat = u.toNat * 2 ^ k := by
  have hmod : (UInt32.ofNat k).toNat % 32 = k := by
    rw [UInt32.toNat_ofNat', Nat.mod_eq_of_lt (a := k) (by omega), Nat.mod_eq_of_lt hk]
  rw [UInt32.toNat_shiftLeft, hmod, Nat.shiftLeft_eq, Nat.mod_eq_of_lt h]

theorem toNat_or_of_lt {u v : UInt32} {k a : Nat} (hu : u.toNat = 2 ^ k * a) (hv : v.toNat < 2 ^ k) :
    (u ||| v).toNat = u.toNat + v.toNat := by
  rw [UInt32.toNat_or, hu, Nat.two_pow_add_eq_or_of_lt hv]

/-- The last field is checked against its own width. -/
theorem filter_tryU32_eq_some {n : Nat} {bound u : UInt32} :
    (tryU32 n).filter (fun r => decide (r ≤ bound)) = some u ↔ u.toNat = n ∧ n ≤ bound.toNat := by
  rw [Option.filter_eq_some_iff, tryU32_eq_some, decide_eq_true_eq, UInt32.le_iff_toNat_le]
  constructor
  · rintro ⟨rfl, hle⟩
    exact ⟨rfl, hle⟩
  · rintro ⟨rfl, hle⟩
    exact ⟨rfl, hle⟩

theorem joinTwo {h l : UInt32} (hh : h.toNat ≤ 255) (hl : l.toNat < 2 ^ 24) :
    (h <<< 24 ||| l).toNat = h.toNat * 2 ^ 24 + l.toNat := by
  have hshift : (h <<< 24).toNat = h.toNat * 2 ^ 24 :=
    toNat_shiftLeft_of_lt (k := 24) (by decide) (by omega)
  rw [toNat_or_of_lt (hshift.trans (Nat.mul_comm ..)) hl, hshift]

theorem joinThree {h m l : UInt32} (hh : h.toNat ≤ 255) (hm : m.toNat ≤ 255)
    (hl : l.toNat < 2 ^ 16) :
    (h <<< 24 ||| m <<< 16 ||| l).toNat = (h.toNat * 256 + m.toNat) * 2 ^ 16 + l.toNat := by
  have hshift : (m <<< 16).toNat = m.toNat * 2 ^ 16 :=
    toNat_shiftLeft_of_lt (k := 16) (by decide) (by omega)
  have hhigh : (h <<< 24 ||| m <<< 16).toNat = 2 ^ 16 * (h.toNat * 256 + m.toNat) := by
    rw [joinTwo hh (by omega), hshift]
    ring
  rw [toNat_or_of_lt hhigh hl, hhigh, Nat.mul_comm]

theorem joinFour {h m t l : UInt32} (hh : h.toNat ≤ 255) (hm : m.toNat ≤ 255)
    (ht : t.toNat ≤ 255) (hl : l.toNat < 2 ^ 8) :
    (h <<< 24 ||| m <<< 16 ||| t <<< 8 ||| l).toNat
      = ((h.toNat * 256 + m.toNat) * 256 + t.toNat) * 2 ^ 8 + l.toNat := by
  have hshift : (t <<< 8).toNat = t.toNat * 2 ^ 8 :=
    toNat_shiftLeft_of_lt (k := 8) (by decide) (by omega)
  have hhigh : (h <<< 24 ||| m <<< 16 ||| t <<< 8).toNat
      = 2 ^ 8 * ((h.toNat * 256 + m.toNat) * 256 + t.toNat) := by
    rw [joinThree hh hm (by omega), hshift]
    ring
  rw [toNat_or_of_lt hhigh hl, hhigh, Nat.mul_comm]

theorem joined_one (a last : Nat) : joined [a] last = a * 2 ^ 24 + last := by
  simp [joined]

theorem joined_two (a b last : Nat) : joined [a, b] last = (a * 256 + b) * 2 ^ 16 + last := by
  simp [joined]

theorem joined_three (a b c last : Nat) :
    joined [a, b, c] last = ((a * 256 + b) * 256 + c) * 2 ^ 8 + last := by
  simp [joined]

theorem combineParts_append {init : List Nat} {last : Nat} {w : UInt32} :
    combineParts (init ++ [last]) = some w ↔
      init.length ≤ 3 ∧ (∀ v ∈ init, v ≤ 255) ∧ last < 256 ^ (4 - init.length) ∧
        w.toNat = joined init last := by
  rcases init with _ | ⟨a, _ | ⟨b, _ | ⟨c, _ | ⟨d, rest⟩⟩⟩⟩
  · change tryU32 last = some w ↔ _
    rw [tryU32_eq_some]
    have hw := w.toNat_lt
    simp only [joined, List.length_nil, List.foldl_nil]
    constructor
    · rintro rfl
      exact ⟨by omega, nofun, by simpa using hw, by omega⟩
    · rintro ⟨-, -, -, h⟩
      omega
  · simp only [List.cons_append, List.nil_append, combineParts, Option.ite_none_right_eq_some,
      Option.bind_eq_bind, Option.bind_eq_some_iff, Option.some.injEq, tryU32_eq_some,
      filter_tryU32_eq_some]
    constructor
    · rintro ⟨ha, high, rfl, low, ⟨rfl, hlow⟩, rfl⟩
      have hlt : low.toNat < 2 ^ 24 := Nat.lt_succ_of_le hlow
      exact ⟨by simp, by simpa using ha, hlt, by rw [joinTwo ha hlt, joined_one]⟩
    · rintro ⟨-, hinit, hlast, hw⟩
      have ha : a ≤ 255 := hinit a (by simp)
      have hlt : last < 2 ^ 24 := hlast
      have htoA := toNat_toUInt32 (n := a) (by omega)
      have htoL := toNat_toUInt32 (n := last) (by omega)
      refine ⟨ha, a.toUInt32, htoA, last.toUInt32, ⟨htoL, Nat.le_of_lt_succ hlt⟩, ?_⟩
      rw [← UInt32.toNat_inj, joinTwo (by omega) (by omega), htoA, htoL, hw, joined_one]
  · simp only [List.cons_append, List.nil_append, combineParts, Option.ite_none_right_eq_some,
      Option.bind_eq_bind, Option.bind_eq_some_iff, Option.some.injEq, tryU32_eq_some,
      filter_tryU32_eq_some]
    constructor
    · rintro ⟨⟨ha, hb⟩, high, rfl, mid, rfl, low, ⟨rfl, hlow⟩, rfl⟩
      have hlt : low.toNat < 2 ^ 16 := Nat.lt_succ_of_le hlow
      exact ⟨by simp, by simpa using ⟨ha, hb⟩, hlt, by rw [joinThree ha hb hlt, joined_two]⟩
    · rintro ⟨-, hinit, hlast, hw⟩
      have ha : a ≤ 255 := hinit a (by simp)
      have hb : b ≤ 255 := hinit b (by simp)
      have hlt : last < 2 ^ 16 := hlast
      have htoA := toNat_toUInt32 (n := a) (by omega)
      have htoB := toNat_toUInt32 (n := b) (by omega)
      have htoL := toNat_toUInt32 (n := last) (by omega)
      refine ⟨⟨ha, hb⟩, a.toUInt32, htoA, b.toUInt32, htoB, last.toUInt32,
        ⟨htoL, Nat.le_of_lt_succ hlt⟩, ?_⟩
      rw [← UInt32.toNat_inj, joinThree (by omega) (by omega) (by omega), htoA, htoB, htoL, hw,
        joined_two]
  · simp only [List.cons_append, List.nil_append, combineParts, Option.ite_none_right_eq_some,
      Option.bind_eq_bind, Option.bind_eq_some_iff, Option.some.injEq, tryU32_eq_some,
      filter_tryU32_eq_some]
    constructor
    · rintro ⟨⟨ha, hb, hc⟩, high, rfl, mid, rfl, third, rfl, low, ⟨rfl, hlow⟩, rfl⟩
      have hlt : low.toNat < 2 ^ 8 := Nat.lt_succ_of_le hlow
      exact ⟨by simp, by simpa using ⟨ha, hb, hc⟩, hlt, by rw [joinFour ha hb hc hlt, joined_three]⟩
    · rintro ⟨-, hinit, hlast, hw⟩
      have ha : a ≤ 255 := hinit a (by simp)
      have hb : b ≤ 255 := hinit b (by simp)
      have hc : c ≤ 255 := hinit c (by simp)
      have hlt : last < 2 ^ 8 := hlast
      have htoA := toNat_toUInt32 (n := a) (by omega)
      have htoB := toNat_toUInt32 (n := b) (by omega)
      have htoC := toNat_toUInt32 (n := c) (by omega)
      have htoL := toNat_toUInt32 (n := last) (by omega)
      refine ⟨⟨ha, hb, hc⟩, a.toUInt32, htoA, b.toUInt32, htoB, c.toUInt32, htoC, last.toUInt32,
        ⟨htoL, Nat.le_of_lt_succ hlt⟩, ?_⟩
      rw [← UInt32.toNat_inj, joinFour (by omega) (by omega) (by omega) (by omega), htoA, htoB,
        htoC, htoL, hw, joined_three]
  · simp [combineParts]

/-! ## Addresses -/

theorem ofU32_eq (n : UInt32) : Ipv4Addr.ofU32 n = .ofNat n.toNat := by
  have hbyte : ∀ k : Nat, k < 32 →
      (n >>> UInt32.ofNat k).toUInt8 = (n.toNat / 2 ^ k).toUInt8 := by
    intro k hk
    have hmod : (UInt32.ofNat k).toNat % 32 = k := by
      rw [UInt32.toNat_ofNat', Nat.mod_eq_of_lt (a := k) (by omega), Nat.mod_eq_of_lt hk]
    rw [← UInt8.toNat_inj, UInt32.toNat_toUInt8, UInt32.toNat_shiftRight, hmod,
      Nat.shiftRight_eq_div_pow]
    simp
  have hlow : n.toUInt8 = n.toNat.toUInt8 := by
    rw [← UInt8.toNat_inj, UInt32.toNat_toUInt8]
    simp
  exact Ipv4Addr.ext (hbyte 24 (by decide)) (hbyte 16 (by decide)) (hbyte 8 (by decide)) hlow

theorem length_map_text (s : Spelling) : ((s.init ++ [s.last]).map Part.text).length ≤ 4 := by
  have := s.length_le
  simp
  omega

theorem splitOn_text (s : Spelling) :
    s.text.splitOn '.' = (s.init ++ [s.last]).map Part.text := by
  refine List.splitOn_intercalate '.' ?_ (by simp)
  intro l hl
  obtain ⟨p, -, rfl⟩ := List.mem_map.1 hl
  exact dot_notMem_text p

theorem spelling_text_ne_nil (s : Spelling) : s.text ≠ [] := by
  intro hnil
  have hsplit := splitOn_text s
  rw [hnil] at hsplit
  have hmem : s.last.text ∈ (s.init ++ [s.last]).map Part.text :=
    List.mem_map_of_mem (by simp)
  rw [← hsplit] at hmem
  exact text_ne_nil s.last (by simpa using hmem)

theorem value_lt (s : Spelling) : ∀ p ∈ s.init ++ [s.last], p.value < 2 ^ 64 := by
  intro p hp
  rcases List.mem_append.1 hp with hinit | hlast
  · have := s.init_le p hinit
    omega
  · rw [List.mem_singleton.1 hlast]
    have hpow : 256 ^ (4 - s.init.length) ≤ 256 ^ 4 := Nat.pow_le_pow_right (by decide) (by omega)
    have := s.last_lt
    omega

theorem foldl_lt {init : List Nat} (h : ∀ v ∈ init, v ≤ 255) :
    init.foldl (fun acc v => acc * 256 + v) 0 < 256 ^ init.length := by
  induction init using List.reverseRecOn with
  | nil => exact Nat.one_pos
  | append_singleton init v ih =>
    have hinit := ih fun u hu => h u (List.mem_append_left _ hu)
    have hv : v ≤ 255 := h v (by simp)
    rw [List.foldl_append, List.length_append, List.length_singleton, Nat.pow_succ]
    simp only [List.foldl_cons, List.foldl_nil]
    omega

/-- The fields are 32 bits together. -/
theorem value_lt_of_fields (s : Spelling) : s.value < 2 ^ 32 := by
  have hinit : (s.init.map Part.value).foldl (fun acc v => acc * 256 + v) 0
      < 256 ^ (s.init.map Part.value).length := foldl_lt (by simpa using s.init_le)
  rw [List.length_map] at hinit
  have hlast := s.last_lt
  have hpow : 256 ^ s.init.length * 256 ^ (4 - s.init.length) = 2 ^ 32 := by
    have hsum : s.init.length + (4 - s.init.length) = 4 := by
      have := s.length_le
      omega
    rw [← Nat.pow_add, hsum]
    norm_num
  unfold Spelling.value joined
  rw [List.length_map]
  have hmul := Nat.mul_le_mul_right (256 ^ (4 - s.init.length)) (Nat.succ_le_of_lt hinit)
  rw [hpow, Nat.succ_mul] at hmul
  omega

/-- **The loose parser reads exactly the spellings**, each as the address it denotes. -/
theorem parseInetAtonIpv4_eq_some {host : Str} {addr : Ipv4Addr} :
    parseInetAtonIpv4 host = some addr ↔ ∃ s : Spelling, s.text = host ∧ s.address = addr := by
  constructor
  · intro h
    unfold parseInetAtonIpv4 at h
    split_ifs at h with hempty hlong
    obtain ⟨vals, hvals, hrest⟩ := Option.bind_eq_some_iff.1 h
    obtain ⟨w, hw, hok⟩ := Option.bind_eq_some_iff.1 hrest
    obtain ⟨ps, htexts, rfl, -⟩ := mapM_parse_eq_some.1 hvals
    rcases List.eq_nil_or_concat' ps with rfl | ⟨init, last, rfl⟩
    · cases hw
    · rw [List.map_append, List.map_singleton, combineParts_append] at hw
      obtain ⟨hlength, hinit, hlast, hw⟩ := hw
      rw [List.length_map] at hlength hlast
      refine ⟨⟨init, last, hlength, fun p hp => hinit _ (List.mem_map_of_mem hp), hlast⟩, ?_, ?_⟩
      · change ['.'].intercalate ((init ++ [last]).map Part.text) = host
        rw [htexts, List.intercalate_splitOn]
      · rw [← Option.some.inj hok, ofU32_eq, hw]
        rfl
  · rintro ⟨s, rfl, rfl⟩
    have hempty : s.text.isEmpty = false := by simpa using spelling_text_ne_nil s
    have hlong : ¬4 < (s.text.splitOn '.').length := by
      rw [splitOn_text]
      exact Nat.not_lt.2 (length_map_text s)
    have hvals : (s.text.splitOn '.').mapM parseInetAtonPart
        = some ((s.init ++ [s.last]).map Part.value) :=
      mapM_parse_eq_some.2 ⟨s.init ++ [s.last], (splitOn_text s).symm, rfl, value_lt s⟩
    have hvalue : s.value < 2 ^ 32 := value_lt_of_fields s
    have hw : combineParts ((s.init ++ [s.last]).map Part.value) = some s.value.toUInt32 := by
      rw [List.map_append, List.map_singleton, combineParts_append, List.length_map]
      exact ⟨s.length_le, by simpa using s.init_le, s.last_lt, toNat_toUInt32 hvalue⟩
    unfold parseInetAtonIpv4
    rw [hempty, if_neg (by decide), if_neg hlong, hvals]
    change (combineParts ((s.init ++ [s.last]).map Part.value)).bind _ = _
    rw [hw]
    change some (Ipv4Addr.ofU32 s.value.toUInt32) = _
    rw [ofU32_eq, toNat_toUInt32 hvalue]
    rfl

/-! ## The strict parser -/

theorem parseOctet_eq_some {part : Str} {octet : UInt8} (h : parseOctet part = some octet) :
    ∃ p : Part, p.text = part ∧ p.value = octet.toNat := by
  unfold parseOctet at h
  split_ifs at h with hoctet
  obtain ⟨hne, -, hall, hzero, hlt⟩ := hoctet
  cases h
  refine ⟨⟨.decimal, part, hne, hall, fun _ hhead => ?_⟩, rfl, (Nat.mod_eq_of_lt hlt).symm⟩
  obtain ⟨c, rfl⟩ := List.length_eq_one_iff.1 (hzero hhead)
  obtain rfl : c = '0' := by simpa using hhead
  rfl

theorem ofNat_joined (a b c d : UInt8) :
    Ipv4Addr.ofNat (joined [a.toNat, b.toNat, c.toNat] d.toNat) = ⟨a, b, c, d⟩ := by
  have ha := a.toNat_lt
  have hb := b.toNat_lt
  have hc := c.toNat_lt
  have hd := d.toNat_lt
  have hbyte : ∀ {n : Nat} {u : UInt8}, n % 256 = u.toNat → n.toUInt8 = u := by
    intro n u h
    rw [← UInt8.toNat_inj, ← h]
    rfl
  rw [joined_three]
  refine Ipv4Addr.ext ?_ ?_ ?_ ?_
  · exact hbyte (u := a) (by omega)
  · exact hbyte (u := b) (by omega)
  · exact hbyte (u := c) (by omega)
  · exact hbyte (u := d) (by omega)

theorem exists_spelling_of_parseIpv4 {host : Str} {addr : Ipv4Addr}
    (h : parseIpv4 host = some addr) : ∃ s : Spelling, s.text = host ∧ s.address = addr := by
  unfold parseIpv4 at h
  split at h
  next ta tb tc td hsplit =>
    simp only [Option.bind_eq_bind, Option.bind_eq_some_iff, Option.some.injEq] at h
    obtain ⟨a, ha, b, hb, c, hc, d, hd, rfl⟩ := h
    obtain ⟨pa, hta, hva⟩ := parseOctet_eq_some ha
    obtain ⟨pb, htb, hvb⟩ := parseOctet_eq_some hb
    obtain ⟨pc, htc, hvc⟩ := parseOctet_eq_some hc
    obtain ⟨pd, htd, hvd⟩ := parseOctet_eq_some hd
    have hle : ∀ p ∈ [pa, pb, pc], p.value ≤ 255 := by
      have hltA := a.toNat_lt
      have hltB := b.toNat_lt
      have hltC := c.toNat_lt
      simp only [List.forall_mem_cons, List.not_mem_nil, false_implies, implies_true, and_true]
      omega
    have hlast : pd.value < 256 ^ (4 - [pa, pb, pc].length) := by
      rw [hvd]
      exact d.toNat_lt
    refine ⟨⟨[pa, pb, pc], pd, le_refl 3, hle, hlast⟩, ?_, ?_⟩
    · change ['.'].intercalate [pa.text, pb.text, pc.text, pd.text] = host
      rw [hta, htb, htc, htd, ← hsplit, List.intercalate_splitOn]
    · change Ipv4Addr.ofNat (joined [pa.value, pb.value, pc.value] pd.value) = _
      rw [hva, hvb, hvc, hvd, ofNat_joined]
  next => cases h

/-! ## The guard -/

theorem mem_of_mem_intercalate {sep : Str} {ls : List Str} {c : Char}
    (h : c ∈ sep.intercalate ls) : c ∈ sep ∨ ∃ l ∈ ls, c ∈ l := by
  induction ls with
  | nil => cases h
  | cons l ls ih =>
    rcases eq_or_ne ls [] with rfl | hls
    · exact .inr ⟨l, by simp, by simpa using h⟩
    · rw [List.intercalate_cons_of_ne_nil hls, List.mem_append, List.mem_append] at h
      rcases h with (h | h) | h
      · exact .inr ⟨l, List.mem_cons_self, h⟩
      · exact .inl h
      · rcases ih h with hsep | ⟨l', hl', hc⟩
        · exact .inl hsep
        · exact .inr ⟨l', List.mem_cons_of_mem l hl', hc⟩

/-- A character that no spelling has. -/
theorem notMem_spelling_text {c : Char}
    (hc : (Numeral.isDigit 16 c || c == 'x' || c == 'X' || c == '.') = false) (s : Spelling) :
    c ∉ s.text := by
  simp only [Bool.or_eq_false_iff, beq_eq_false_iff_ne] at hc
  obtain ⟨⟨⟨hdigit, hx⟩, hX⟩, hdot⟩ := hc
  intro h
  rcases mem_of_mem_intercalate h with hsep | ⟨l, hl, hmem⟩
  · exact hdot (List.mem_singleton.1 hsep)
  · obtain ⟨p, -, rfl⟩ := List.mem_map.1 hl
    rcases mem_text hmem with h | h | h
    · exact Bool.eq_false_iff.1 hdigit h
    · exact hx h
    · exact hX h

theorem not_localhost (s : Spelling) : eqIgnoreAsciiCase s.text "localhost".toList = false := by
  rw [← Bool.not_eq_true]
  intro h
  have hmap : s.text.map Char.toLower = "localhost".toList.map Char.toLower := by
    simpa [eqIgnoreAsciiCase] using h
  have hmem : 'l' ∈ s.text.map Char.toLower := by
    rw [hmap]
    decide
  obtain ⟨c, hc, hlower⟩ := List.mem_map.1 hmem
  rcases eq_of_toLower_eq hlower with rfl | rfl
  · exact notMem_spelling_text (by decide) s hc
  · exact notMem_spelling_text (by decide) s hc

theorem no_empty_label (s : Spelling) : (s.text.splitOn '.').any List.isEmpty = false := by
  rw [splitOn_text, ← Bool.not_eq_true, List.any_eq_true]
  rintro ⟨l, hl, hempty⟩
  obtain ⟨p, -, rfl⟩ := List.mem_map.1 hl
  exact text_ne_nil p (List.isEmpty_iff.1 hempty)

theorem hostIsPublic_text (std : Ipv6Parser) (s : Spelling) :
    hostIsPublic std s.text = ipv4IsPublic s.address := by
  have hempty : s.text.isEmpty = false := by simpa using spelling_text_ne_nil s
  have hloose : parseInetAtonIpv4 s.text = some s.address :=
    parseInetAtonIpv4_eq_some.2 ⟨s, rfl, rfl⟩
  have hv6 : std.parse s.text = none := by
    rw [Option.eq_none_iff_forall_ne_some]
    intro addr haddr
    exact notMem_spelling_text (by decide) s (std.colon_mem haddr)
  unfold hostIsPublic parseIpAddr
  rw [hempty, no_empty_label, not_localhost, hv6]
  cases hstrict : parseIpv4 s.text with
  | none =>
    simp only [Bool.or_self, Bool.false_eq_true, if_false, Option.map_none]
    rw [hloose]
  | some addr =>
    -- the strict parser reads the same address as the loose one
    have hsame : parseInetAtonIpv4 s.text = some addr :=
      parseInetAtonIpv4_eq_some.2 (exists_spelling_of_parseIpv4 hstrict)
    rw [hloose] at hsame
    simp only [Bool.or_self, Bool.false_eq_true, if_false]
    rw [Option.some.inj hsame]

/-- **The guard sees every numeric spelling of an IPv4 address**, and nothing else is read as one. -/
theorem host_is_public_of_spelling (std : Ipv6Parser) :
    (∀ s : Spelling, hostIsPublic std s.text = ipv4IsPublic s.address) ∧
    ∀ host : Str, (∀ s : Spelling, s.text ≠ host) → parseInetAtonIpv4 host = none := by
  refine ⟨hostIsPublic_text std, fun host hnone => ?_⟩
  rw [Option.eq_none_iff_forall_ne_some]
  intro addr haddr
  obtain ⟨s, htext, -⟩ := parseInetAtonIpv4_eq_some.1 haddr
  exact hnone s htext

/-- A parser that reads the loopback address and nothing else. -/
def loopbackParser : Ipv6Parser where
  parse host := if host = [':', ':', '1'] then some ⟨0, 0, 0, 0, 0, 0, 0, 1⟩ else none
  colon_mem := by
    intro host addr h
    split_ifs at h with hhost
    rw [hhost]
    decide

/-- `0x7f.1`, a spelling of the loopback address. -/
def shortLoopback : Spelling where
  init := [⟨.hex false, ['7', 'f'], by decide, by decide, nofun⟩]
  last := ⟨.decimal, ['1'], by decide, by decide, by decide⟩
  length_le := by decide
  init_le := by decide
  last_lt := by decide

theorem host_is_public_of_spelling_loopback :
    hostIsPublic loopbackParser shortLoopback.text = ipv4IsPublic ⟨127, 0, 0, 1⟩ ∧
      parseInetAtonIpv4 ['o', 'c', 's', 'p'] = none := by
  obtain ⟨hspelling, hother⟩ := host_is_public_of_spelling loopbackParser
  refine ⟨hspelling shortLoopback, hother _ fun s hs => ?_⟩
  have hmem : 's' ∈ s.text := by rw [hs]; decide
  exact notMem_spelling_text (by decide) s hmem

end McpRe.Outbound
