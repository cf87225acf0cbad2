import McpRe.Core.Verify.Calendar
import McpRe.Lib.Ascii
import McpRe.Lib.Split

/-!
# Timestamps

A `Timestamp` is a date of the calendar, a time of day and perhaps a fraction, and its `text` is the
form RFC 3339 gives it. The parser reads exactly those texts, each as the second it names, and the
printer writes that second back without the fraction.

* `rfc3339_bijection`: the two are inverse to each other on the years of four digits.
-/

namespace McpRe.Core

open Lib Lib.Text Lib.Calendar Lib.Numeral

/-! ## Timestamps -/

structure Timestamp where
  date : Date
  hour : Int
  minute : Int
  second : Int
  fraction : Option Str
  year_range : 0 ≤ date.year ∧ date.year ≤ 9999
  hour_range : 0 ≤ hour ∧ hour ≤ 23
  minute_range : 0 ≤ minute ∧ minute ≤ 59
  second_range : 0 ≤ second ∧ second ≤ 59
  fraction_digits : ∀ digits ∈ fraction, digits ≠ [] ∧ digits.all (isDigit 10) = true

namespace Timestamp

def text (t : Timestamp) : Str :=
  fixed 4 t.date.year.toNat ++ '-' :: (fixed 2 t.date.month.toNat ++ '-' ::
    (fixed 2 t.date.day.toNat ++ 'T' :: (fixed 2 t.hour.toNat ++ ':' ::
      (fixed 2 t.minute.toNat ++ ':' :: (fixed 2 t.second.toNat ++
        (behind '.' t.fraction ++ ['Z']))))))

def unix (t : Timestamp) : Int :=
  Date.number t.date * 86400 + t.hour * 3600 + t.minute * 60 + t.second

def whole (t : Timestamp) : Timestamp := { t with fraction := none, fraction_digits := nofun }

end Timestamp

/-! ## Digits in bytes -/

theorem isAscii_digitChar {d : Nat} (h : d < 10) : (Nat.digitChar d).toNat < 128 := by
  rw [Nat.toNat_digitChar_of_lt_ten h]
  omega

theorem isAscii_fixed (width v : Nat) : IsAscii (fixed width v) := by
  induction width with
  | zero => exact nofun
  | succ width ih =>
    intro c hc
    rcases List.mem_cons.1 hc with rfl | hc
    · exact isAscii_digitChar (Nat.mod_lt _ (by decide))
    · exact ih c hc

theorem toNat_ofNat_byte (b : UInt8) : (Char.ofNat b.toNat).toNat = b.toNat := by
  have hlt := b.toNat_lt
  have hvalid : b.toNat.isValidChar := .inl (by omega)
  rw [Char.ofNat, dif_pos hvalid]
  rfl

theorem toDigit_byte_eq_some {b : UInt8} {d : Nat} :
    toDigit 10 (Char.ofNat b.toNat) = some d ↔ d < 10 ∧ b = byteOf (Nat.digitChar d) := by
  rw [toDigit_ten_eq_some]
  refine and_congr_right fun hd => ?_
  have hbyte : (byteOf (Nat.digitChar d)).toNat = (Nat.digitChar d).toNat :=
    toNat_toUInt8_of_ascii (isAscii_digitChar hd)
  rw [← UInt8.toNat_inj, hbyte, ← Char.toNat_inj, toNat_ofNat_byte]

theorem checkedI64_eq_some {n m : Int} : checkedI64 n = some m ↔
    n = m ∧ -2 ^ 63 ≤ n ∧ n ≤ 2 ^ 63 - 1 := by
  unfold checkedI64
  constructor
  · intro h
    split_ifs at h with hrange
    exact ⟨Option.some.inj h, hrange⟩
  · rintro ⟨rfl, hrange⟩
    rw [if_pos hrange]

/-- **The digits of a field are those of the number read**, and no step overflows. -/
theorem readDigits_eq_some {field : Bytes} {acc v : Int} (hacc : 0 ≤ acc)
    (hfits : (acc + 1) * 10 ^ field.length ≤ 10 ^ 4) :
    readDigits acc field = some v ↔ ∃ n < 10 ^ field.length,
      field = (fixed field.length n).map byteOf ∧ v = acc * 10 ^ field.length + n := by
  induction field generalizing acc with
  | nil =>
    simp only [readDigits, Option.some.injEq, List.length_nil, pow_zero, mul_one]
    constructor
    · rintro rfl
      exact ⟨0, by decide, rfl, by simp⟩
    · rintro ⟨n, hn, -, rfl⟩
      have hzero : n = 0 := by omega
      simp [hzero]
  | cons b field ih =>
    have hpos : (0 : Int) < 10 ^ field.length := by positivity
    have hone : (1 : Int) ≤ 10 ^ field.length := hpos
    have hpow : (10 : Int) ^ (b :: field).length = 10 * 10 ^ field.length := by
      rw [List.length_cons, pow_succ, mul_comm]
    rw [hpow] at hfits
    have hbound : acc * 10 + 10 ≤ 10 ^ 4 := by nlinarith
    have hdigit : ∀ d : Nat, d < 10 → (acc * 10 + d + 1) * 10 ^ field.length ≤ 10 ^ 4 := by
      intro d hd
      have hd' : (d : Int) ≤ 9 := by omega
      nlinarith
    have hhigh : ∀ d n : Nat, d < 10 → n < 10 ^ field.length →
        (d * 10 ^ field.length + n) / 10 ^ field.length % 10 = d := by
      intro d n hd hn
      rw [Nat.add_comm, Nat.add_mul_div_right _ _ (Nat.pow_pos (by decide)), Nat.div_eq_of_lt hn,
        Nat.zero_add, Nat.mod_eq_of_lt hd]
    simp only [readDigits, Option.bind_eq_bind, Option.bind_eq_some_iff, toDigit_byte_eq_some,
      checkedI64_eq_some]
    constructor
    · rintro ⟨d, ⟨hd, rfl⟩, _, ⟨rfl, -⟩, _, ⟨rfl, -⟩, hrest⟩
      obtain ⟨n, hn, hfield, rfl⟩ := (ih (by omega) (hdigit d hd)).1 hrest
      refine ⟨d * 10 ^ field.length + n, ?_, ?_, ?_⟩
      · rw [List.length_cons, pow_succ]
        have hstep : (d + 1) * 10 ^ field.length ≤ 10 * 10 ^ field.length :=
          Nat.mul_le_mul_right _ (by omega)
        rw [Nat.add_mul, Nat.one_mul] at hstep
        omega
      · rw [List.length_cons, fixed, List.map_cons, hhigh d n hd hn, fixed_add, ← hfield]
      · rw [hpow]
        push_cast
        ring
    · rintro ⟨v, hv, hfield, rfl⟩
      rw [List.length_cons, pow_succ] at hv
      obtain ⟨d, n, hd, hn, rfl⟩ : ∃ d n, d < 10 ∧ n < 10 ^ field.length ∧
          v = d * 10 ^ field.length + n := by
        refine ⟨v / 10 ^ field.length, v % 10 ^ field.length, ?_, Nat.mod_lt _ (by positivity), ?_⟩
        · rwa [Nat.div_lt_iff_lt_mul (by positivity), Nat.mul_comm]
        · rw [Nat.mul_comm]
          exact (Nat.div_add_mod v _).symm
      rw [List.length_cons, fixed, List.map_cons, List.cons.injEq, hhigh d n hd hn, fixed_add]
        at hfield
      refine ⟨d, ⟨hd, hfield.1⟩, acc * 10, ⟨rfl, by omega, by omega⟩, acc * 10 + d,
        ⟨rfl, by omega, by omega⟩, ?_⟩
      rw [ih (by omega) (hdigit d hd), hpow]
      refine ⟨n, hn, hfield.2, ?_⟩
      push_cast
      ring

theorem readDigits_zero_eq_some {field : Bytes} {v : Int} {width : Nat}
    (hlength : field.length = width) (hwidth : width ≤ 4) :
    readDigits 0 field = some v ↔
      ∃ n < 10 ^ width, field = (fixed width n).map byteOf ∧ v = n := by
  subst hlength
  have hfits : ((0 : Int) + 1) * 10 ^ field.length ≤ 10 ^ 4 := by
    rw [zero_add, one_mul]
    exact pow_le_pow_right₀ (by decide) hwidth
  rw [readDigits_eq_some (le_refl 0) hfits]
  simp only [zero_mul, zero_add]

/-! ## The layout -/

/-- The fields of a timestamp's bytes, and what follows them. -/
structure Fields where
  year : Bytes
  month : Bytes
  day : Bytes
  hour : Bytes
  minute : Bytes
  second : Bytes
  tail : Bytes
  length_year : year.length = 4
  length_month : month.length = 2
  length_day : day.length = 2
  length_hour : hour.length = 2
  length_minute : minute.length = 2
  length_second : second.length = 2

def Fields.bytes (f : Fields) : Bytes :=
  f.year ++ byteOf '-' :: (f.month ++ byteOf '-' :: (f.day ++ byteOf 'T' :: (f.hour ++ byteOf ':' ::
    (f.minute ++ byteOf ':' :: (f.second ++ f.tail)))))

theorem exists_eq_append_cons {bytes : Bytes} {n : Nat} {b : UInt8} (h : bytes[n]? = some b) :
    ∃ before after, bytes = before ++ b :: after ∧ before.length = n := by
  obtain ⟨hn, rfl⟩ := List.getElem?_eq_some_iff.1 h
  refine ⟨bytes.take n, bytes.drop (n + 1), ?_, List.length_take_of_le hn.le⟩
  rw [← List.drop_eq_getElem_cons hn, List.take_append_drop]

theorem getElem?_after {before after : Bytes} {b : UInt8} {n : Nat} (hn : before.length = n) (k : Nat) :
    (before ++ b :: after)[n + 1 + k]? = after[k]? := by
  rw [List.getElem?_append_right (by omega), hn, Nat.add_assoc, Nat.add_sub_cancel_left,
    Nat.add_comm 1 k, List.getElem?_cons_succ]

theorem exists_fields {bytes : Bytes} (hlength : 20 ≤ bytes.length)
    (h4 : bytes[4]? = some (byteOf '-')) (h7 : bytes[7]? = some (byteOf '-'))
    (h10 : bytes[10]? = some (byteOf 'T')) (h13 : bytes[13]? = some (byteOf ':'))
    (h16 : bytes[16]? = some (byteOf ':')) : ∃ f : Fields, f.bytes = bytes := by
  obtain ⟨year, rest, rfl, hyear⟩ := exists_eq_append_cons h4
  rw [getElem?_after hyear 2] at h7
  rw [getElem?_after hyear 5] at h10
  rw [getElem?_after hyear 8] at h13
  rw [getElem?_after hyear 11] at h16
  obtain ⟨month, rest, rfl, hmonth⟩ := exists_eq_append_cons h7
  rw [getElem?_after hmonth 2] at h10
  rw [getElem?_after hmonth 5] at h13
  rw [getElem?_after hmonth 8] at h16
  obtain ⟨day, rest, rfl, hday⟩ := exists_eq_append_cons h10
  rw [getElem?_after hday 2] at h13
  rw [getElem?_after hday 5] at h16
  obtain ⟨hour, rest, rfl, hhour⟩ := exists_eq_append_cons h13
  rw [getElem?_after hhour 2] at h16
  obtain ⟨minute, rest, rfl, hminute⟩ := exists_eq_append_cons h16
  have hsecond : (rest.take 2).length = 2 := by
    simp only [List.length_append, List.length_cons] at hlength
    rw [List.length_take]
    omega
  refine ⟨⟨year, month, day, hour, minute, rest.take 2, rest.drop 2, hyear, hmonth, hday, hhour,
    hminute, hsecond⟩, ?_⟩
  unfold Fields.bytes
  rw [List.take_append_drop]

theorem drop_after {before after : Bytes} {b : UInt8} {n : Nat} (hn : before.length = n) (k : Nat) :
    (before ++ b :: after).drop (n + 1 + k) = after.drop k := by
  subst hn
  rw [Nat.add_assoc, ← List.drop_drop, List.drop_left, Nat.add_comm 1 k, List.drop_succ_cons]

theorem parseFixedDigits_after {before after : Bytes} {b : UInt8} {n : Nat}
    (hn : before.length = n) (k width : Nat) :
    parseFixedDigits (before ++ b :: after) (n + 1 + k) width = parseFixedDigits after k width := by
  unfold parseFixedDigits
  rw [drop_after hn]
  by_cases hk : k ≤ after.length
  · rw [if_pos hk, if_pos (by rw [List.length_append, List.length_cons]; omega)]
  · rw [if_neg hk, if_neg (by rw [List.length_append, List.length_cons]; omega)]

theorem parseFixedDigits_front {field after : Bytes} {width : Nat} (h : field.length = width) :
    parseFixedDigits (field ++ after) 0 width = readDigits 0 field := by
  subst h
  unfold parseFixedDigits
  rw [if_pos (Nat.zero_le _), List.drop_zero, if_pos (by simp), List.take_left]

namespace Fields

variable (f : Fields)

theorem length_bytes : f.bytes.length = 19 + f.tail.length := by
  simp only [bytes, List.length_append, List.length_cons, f.length_year, f.length_month,
    f.length_day, f.length_hour, f.length_minute, f.length_second]
  omega

theorem separators : f.bytes[4]? = some (byteOf '-') ∧ f.bytes[7]? = some (byteOf '-') ∧
    f.bytes[10]? = some (byteOf 'T') ∧ f.bytes[13]? = some (byteOf ':') ∧
    f.bytes[16]? = some (byteOf ':') := by
  have hat : ∀ {before after : Bytes} {b : UInt8} {n : Nat}, before.length = n →
      (before ++ b :: after)[n]? = some b := by
    rintro before after b n rfl
    rw [List.getElem?_append_right (le_refl _), Nat.sub_self]
    rfl
  unfold bytes
  rw [getElem?_after f.length_year 2, getElem?_after f.length_year 5,
    getElem?_after f.length_year 8, getElem?_after f.length_year 11,
    getElem?_after f.length_month 2, getElem?_after f.length_month 5,
    getElem?_after f.length_month 8, getElem?_after f.length_day 2, getElem?_after f.length_day 5,
    getElem?_after f.length_hour 2]
  exact ⟨hat f.length_year, hat f.length_month, hat f.length_day, hat f.length_hour,
    hat f.length_minute⟩

theorem drop_bytes : f.bytes.drop 19 = f.tail := by
  unfold bytes
  rw [drop_after f.length_year 14, drop_after f.length_month 11, drop_after f.length_day 8,
    drop_after f.length_hour 5, drop_after f.length_minute 2, List.drop_left' f.length_second]

theorem parse_year : parseFixedDigits f.bytes 0 4 = readDigits 0 f.year :=
  parseFixedDigits_front f.length_year

theorem parse_month : parseFixedDigits f.bytes 5 2 = readDigits 0 f.month := by
  unfold bytes
  rw [parseFixedDigits_after f.length_year 0, parseFixedDigits_front f.length_month]

theorem parse_day : parseFixedDigits f.bytes 8 2 = readDigits 0 f.day := by
  unfold bytes
  rw [parseFixedDigits_after f.length_year 3, parseFixedDigits_after f.length_month 0,
    parseFixedDigits_front f.length_day]

theorem parse_hour : parseFixedDigits f.bytes 11 2 = readDigits 0 f.hour := by
  unfold bytes
  rw [parseFixedDigits_after f.length_year 6, parseFixedDigits_after f.length_month 3,
    parseFixedDigits_after f.length_day 0, parseFixedDigits_front f.length_hour]

theorem parse_minute : parseFixedDigits f.bytes 14 2 = readDigits 0 f.minute := by
  unfold bytes
  rw [parseFixedDigits_after f.length_year 9, parseFixedDigits_after f.length_month 6,
    parseFixedDigits_after f.length_day 3, parseFixedDigits_after f.length_hour 0,
    parseFixedDigits_front f.length_minute]

theorem parse_second : parseFixedDigits f.bytes 17 2 = readDigits 0 f.second := by
  unfold bytes
  rw [parseFixedDigits_after f.length_year 12, parseFixedDigits_after f.length_month 9,
    parseFixedDigits_after f.length_day 6, parseFixedDigits_after f.length_hour 3,
    parseFixedDigits_after f.length_minute 0, parseFixedDigits_front f.length_second]

end Fields

/-! ## The fraction -/

theorem isAsciiDigit_iff {b : UInt8} :
    isAsciiDigit b = true ↔ isDigit 10 (Char.ofNat b.toNat) = true := by
  have hchar := toNat_ofNat_byte b
  simp only [isAsciiDigit, Bool.and_eq_true, decide_eq_true_eq, UInt8.le_iff_toNat_le]
  constructor
  · rintro ⟨hlo, hhi⟩
    have hlo' : 48 ≤ b.toNat := hlo
    have hhi' : b.toNat ≤ 57 := hhi
    have hd : toDigit 10 (Char.ofNat b.toNat) = some (b.toNat - 48) := by
      refine toDigit_ten_eq_some.2 ⟨by omega, Char.toNat_inj.1 ?_⟩
      rw [hchar, Nat.toNat_digitChar_of_lt_ten (by omega)]
      omega
    rw [isDigit, hd]
    rfl
  · intro h
    obtain ⟨d, hd⟩ := Option.isSome_iff_exists.1 h
    obtain ⟨hlt, heq⟩ := toDigit_ten_eq_some.1 hd
    rw [heq, Nat.toNat_digitChar_of_lt_ten hlt] at hchar
    exact ⟨show 48 ≤ b.toNat by omega, show b.toNat ≤ 57 by omega⟩

theorem exists_digit_of_isDigit {c : Char} (h : isDigit 10 c = true) :
    ∃ d < 10, c = Nat.digitChar d := by
  obtain ⟨d, hd⟩ := Option.isSome_iff_exists.1 h
  exact ⟨d, toDigit_ten_eq_some.1 hd⟩

theorem ofNat_byteOf {c : Char} (h : c.toNat < 128) : Char.ofNat (byteOf c).toNat = c := by
  rw [← Char.toNat_inj, toNat_ofNat_byte]
  exact toNat_toUInt8_of_ascii h

theorem byteOf_ofNat (b : UInt8) : byteOf (Char.ofNat b.toNat) = b := by
  rw [← UInt8.toNat_inj]
  change (Char.ofNat b.toNat).toNat % 256 = b.toNat
  rw [toNat_ofNat_byte]
  exact Nat.mod_eq_of_lt b.toNat_lt

theorem fractionOk_iff {tail : Bytes} :
    fractionOk tail = true ↔ ∃ fraction : Option Str,
      (∀ digits ∈ fraction, digits ≠ [] ∧ digits.all (isDigit 10) = true) ∧
        tail = (behind '.' fraction ++ ['Z']).map byteOf := by
  unfold fractionOk
  constructor
  · intro h
    split_ifs at h with hbare hdot
    · exact ⟨none, nofun, hbare⟩
    · obtain ⟨rest, rfl⟩ : ∃ rest, tail = byteOf '.' :: rest := by
        cases tail with
        | nil => cases hdot
        | cons b rest => exact ⟨rest, by rw [Option.some.inj hdot]⟩
      simp only [List.drop_succ_cons, List.drop_zero] at h
      cases hlast : rest.getLast? with
      | none =>
        rw [hlast] at h
        cases h
      | some last =>
        rw [hlast] at h
        simp only [Bool.and_eq_true, beq_iff_eq, Bool.not_eq_true', List.isEmpty_eq_false_iff,
          List.all_eq_true] at h
        obtain ⟨⟨rfl, hne⟩, hall⟩ := h
        refine ⟨some (rest.dropLast.map fun b => Char.ofNat b.toNat), ?_, ?_⟩
        · intro digits hdigits
          obtain rfl := Option.some.inj hdigits
          refine ⟨fun hnil => hne (List.map_eq_nil_iff.1 hnil), ?_⟩
          rw [List.all_map, List.all_eq_true]
          exact fun b hb => isAsciiDigit_iff.1 (hall b hb)
        · have hback : (rest.dropLast.map fun b => Char.ofNat b.toNat).map byteOf
              = rest.dropLast := by
            rw [List.map_map]
            exact (List.map_congr_left fun b _ => byteOf_ofNat b).trans (List.map_id _)
          rw [behind, List.cons_append, List.map_cons, List.map_append, hback]
          exact congrArg _ (List.dropLast_append_getLast? _ hlast).symm
  · rintro ⟨fraction, hdigits, rfl⟩
    cases fraction with
    | none => rfl
    | some digits =>
      obtain ⟨hne, hall⟩ := hdigits digits rfl
      have hbytes : (behind '.' (some digits) ++ ['Z']).map byteOf
          = byteOf '.' :: (digits.map byteOf ++ [byteOf 'Z']) := by
        simp [behind]
      have hlong : byteOf '.' :: (digits.map byteOf ++ [byteOf 'Z']) ≠ [byteOf 'Z'] := by
        simp
      have hbyte : (digits.map byteOf).all isAsciiDigit = true := by
        rw [List.all_map, List.all_eq_true]
        intro c hc
        have hdigit := List.all_eq_true.1 hall c hc
        obtain ⟨d, hd, rfl⟩ := exists_digit_of_isDigit hdigit
        change isAsciiDigit (byteOf (Nat.digitChar d)) = true
        rw [isAsciiDigit_iff, ofNat_byteOf (isAscii_digitChar hd)]
        exact hdigit
      rw [hbytes, if_neg hlong, List.head?_cons, if_pos rfl]
      simp [hne, hbyte]

/-! ## The parser -/

theorem isLeapYear_iff (year : Int) : isLeapYear year = true ↔ IsLeap year := by
  have hzero : ∀ k : Int, year.tmod k = 0 ↔ year % k = 0 := by
    intro k
    rw [← Int.dvd_iff_tmod_eq_zero, ← Int.dvd_iff_emod_eq_zero]
  simp only [isLeapYear, IsLeap, Bool.or_eq_true, Bool.and_eq_true, beq_iff_eq, bne_iff_ne, ne_eq,
    hzero]

/-- The table, with its exception, is the calendar's. -/
theorem maxDay_eq {year month : Int} (hm : 1 ≤ month ∧ month ≤ 12) :
    (if month = 2 ∧ isLeapYear year then 29 else daysInMonth.getD (month - 1).toNat 0)
      = monthLength year month := by
  obtain ⟨hlo, hhi⟩ := hm
  by_cases hleap : IsLeap year
  · have hyear := (isLeapYear_iff year).2 hleap
    unfold monthLength
    interval_cases month <;> simp [daysInMonth, hyear, hleap]
  · have hyear : isLeapYear year = false := Bool.eq_false_iff.2 fun h => hleap ((isLeapYear_iff year).1 h)
    unfold monthLength
    interval_cases month <;> simp [daysInMonth, hyear, hleap]

/-- **What the parser accepts**: the fields of a date and a time of day, and a tail. -/
theorem parseRfc3339Utc_eq_ok {s : Str} {u : Int} :
    parseRfc3339Utc s = .ok u ↔ ∃ (f : Fields) (date : Date) (hour minute second : Int),
      utf8 s = f.bytes ∧ readDigits 0 f.year = some date.year ∧
      readDigits 0 f.month = some date.month ∧ readDigits 0 f.day = some date.day ∧
      readDigits 0 f.hour = some hour ∧ readDigits 0 f.minute = some minute ∧
      readDigits 0 f.second = some second ∧ fractionOk f.tail = true ∧
      hour ≤ 23 ∧ minute ≤ 59 ∧ second ≤ 59 ∧
      u = Date.number date * 86400 + hour * 3600 + minute * 60 + second := by
  constructor
  · intro h
    unfold parseRfc3339Utc at h
    simp only [] at h
    by_cases hlength : (utf8 s).length < 20
    · rw [if_pos hlength] at h
      cases h
    rw [if_neg hlength] at h
    by_cases hsep : (utf8 s)[4]? ≠ some (byteOf '-') ∨ (utf8 s)[7]? ≠ some (byteOf '-') ∨
        (utf8 s)[10]? ≠ some (byteOf 'T') ∨ (utf8 s)[13]? ≠ some (byteOf ':') ∨
        (utf8 s)[16]? ≠ some (byteOf ':')
    · rw [if_pos hsep] at h
      cases h
    rw [if_neg hsep] at h
    simp only [not_or, not_not] at hsep
    obtain ⟨h4, h7, h10, h13, h16⟩ := hsep
    obtain ⟨f, hf⟩ := exists_fields (Nat.le_of_not_lt hlength) h4 h7 h10 h13 h16
    rw [← hf, f.parse_year, f.parse_month, f.parse_day, f.parse_hour, f.parse_minute,
      f.parse_second, f.drop_bytes] at h
    split at h
    next year month day hour minute second hy hmo hd hh hmi hs =>
      by_cases hfraction : fractionOk f.tail = false
      · rw [if_pos hfraction] at h
        cases h
      rw [if_neg hfraction] at h
      by_cases hmonth : 1 ≤ month ∧ month ≤ 12
      swap
      · rw [if_pos hmonth] at h
        cases h
      rw [if_neg (not_not.2 hmonth), maxDay_eq hmonth] at h
      split_ifs at h with hday hclock
      cases h
      exact ⟨f, ⟨year, month, day, hmonth, by omega⟩, hour, minute, second, hf.symm, hy, hmo, hd, hh,
        hmi, hs, Bool.eq_true_of_not_eq_false hfraction, by omega, by omega, by omega, rfl⟩
    next => cases h
  · rintro ⟨f, date, hour, minute, second, hf, hy, hmo, hd, hh, hmi, hs, hfraction, hhour, hminute,
      hsecond, rfl⟩
    have htail : 1 ≤ f.tail.length := by
      rw [Nat.one_le_iff_ne_zero, ne_eq, List.length_eq_zero_iff]
      intro hnil
      rw [hnil] at hfraction
      cases hfraction
    obtain ⟨h4, h7, h10, h13, h16⟩ := f.separators
    have hday := date.day_range
    unfold parseRfc3339Utc
    simp only []
    rw [hf, if_neg (by rw [f.length_bytes]; omega), if_neg (by simp [h4, h7, h10, h13, h16]),
      f.parse_year, f.parse_month, f.parse_day, f.parse_hour, f.parse_minute, f.parse_second,
      f.drop_bytes, hy, hmo, hd, hh, hmi, hs]
    simp only []
    rw [if_neg (by simp [hfraction]), if_neg (not_not.2 date.month_range), maxDay_eq date.month_range,
      if_neg (by omega), if_neg (by omega)]
    rfl

theorem isAscii_cons {c : Char} {s : Str} (hc : c.toNat < 128) (hs : IsAscii s) :
    IsAscii (c :: s) := by
  intro d hd
  rcases List.mem_cons.1 hd with rfl | hd
  · exact hc
  · exact hs d hd

theorem isAscii_append {s t : Str} (hs : IsAscii s) (ht : IsAscii t) : IsAscii (s ++ t) := by
  intro c hc
  exact (List.mem_append.1 hc).elim (hs c) (ht c)

theorem isAscii_text (t : Timestamp) : IsAscii t.text := by
  have hfraction : IsAscii (behind '.' t.fraction) := by
    cases hf : t.fraction with
    | none => exact nofun
    | some digits =>
      refine isAscii_cons (by decide) fun c hc => ?_
      have hdigit := List.all_eq_true.1 (t.fraction_digits digits hf).2 c hc
      obtain ⟨d, hd, rfl⟩ := exists_digit_of_isDigit hdigit
      exact isAscii_digitChar hd
  have hzone : IsAscii ['Z'] := isAscii_cons (by decide) nofun
  unfold Timestamp.text
  refine isAscii_append (isAscii_fixed _ _) (isAscii_cons (by decide) ?_)
  refine isAscii_append (isAscii_fixed _ _) (isAscii_cons (by decide) ?_)
  refine isAscii_append (isAscii_fixed _ _) (isAscii_cons (by decide) ?_)
  refine isAscii_append (isAscii_fixed _ _) (isAscii_cons (by decide) ?_)
  refine isAscii_append (isAscii_fixed _ _) (isAscii_cons (by decide) ?_)
  exact isAscii_append (isAscii_fixed _ _) (isAscii_append hfraction hzone)

def Timestamp.fields (t : Timestamp) : Fields where
  year := (fixed 4 t.date.year.toNat).map byteOf
  month := (fixed 2 t.date.month.toNat).map byteOf
  day := (fixed 2 t.date.day.toNat).map byteOf
  hour := (fixed 2 t.hour.toNat).map byteOf
  minute := (fixed 2 t.minute.toNat).map byteOf
  second := (fixed 2 t.second.toNat).map byteOf
  tail := (behind '.' t.fraction ++ ['Z']).map byteOf
  length_year := by rw [List.length_map, length_fixed]
  length_month := by rw [List.length_map, length_fixed]
  length_day := by rw [List.length_map, length_fixed]
  length_hour := by rw [List.length_map, length_fixed]
  length_minute := by rw [List.length_map, length_fixed]
  length_second := by rw [List.length_map, length_fixed]

theorem utf8_text (t : Timestamp) : utf8 t.text = t.fields.bytes := by
  rw [utf8_of_ascii (isAscii_text t)]
  simp only [Timestamp.text, Fields.bytes, Timestamp.fields, List.map_append, List.map_cons]
  rfl

theorem readDigits_fixed {width : Nat} (hwidth : width ≤ 4) {v : Int}
    (hv : 0 ≤ v ∧ v < 10 ^ width) : readDigits 0 ((fixed width v.toNat).map byteOf) = some v := by
  rw [readDigits_zero_eq_some (by rw [List.length_map, length_fixed]) hwidth]
  refine ⟨v.toNat, ?_, rfl, (Int.toNat_of_nonneg hv.1).symm⟩
  have hcast : ((10 ^ width : Nat) : Int) = 10 ^ width := by push_cast; rfl
  omega

theorem day_le (date : Date) : date.day ≤ 31 := by
  have hday := date.day_range
  have hlength : monthLength date.year date.month ≤ 31 := by
    unfold monthLength
    split_ifs <;> omega
  omega

/-- **A timestamp's text is read as the second it names.** -/
theorem parseRfc3339Utc_text (t : Timestamp) : parseRfc3339Utc t.text = .ok t.unix := by
  have hmonth := t.date.month_range
  have hday := t.date.day_range
  have hle := day_le t.date
  have hyear := t.year_range
  have hhour := t.hour_range
  have hminute := t.minute_range
  have hsecond := t.second_range
  rw [parseRfc3339Utc_eq_ok]
  exact ⟨t.fields, t.date, t.hour, t.minute, t.second, utf8_text t,
    readDigits_fixed (by decide) ⟨hyear.1, by omega⟩,
    readDigits_fixed (by decide) ⟨by omega, by omega⟩,
    readDigits_fixed (by decide) ⟨by omega, by omega⟩,
    readDigits_fixed (by decide) ⟨hhour.1, by omega⟩,
    readDigits_fixed (by decide) ⟨hminute.1, by omega⟩,
    readDigits_fixed (by decide) ⟨hsecond.1, by omega⟩,
    fractionOk_iff.2 ⟨t.fraction, t.fraction_digits, rfl⟩, hhour.2, hminute.2, hsecond.2, rfl⟩

theorem field_eq {field : Bytes} {v : Int} {width : Nat} (hlength : field.length = width)
    (hwidth : width ≤ 4) (h : readDigits 0 field = some v) :
    field = (fixed width v.toNat).map byteOf ∧ 0 ≤ v ∧ v < 10 ^ width := by
  obtain ⟨n, hn, hfield, rfl⟩ := (readDigits_zero_eq_some hlength hwidth).1 h
  exact ⟨hfield, Int.natCast_nonneg n, by exact_mod_cast hn⟩

/-- **Only timestamps are read.** -/
theorem exists_timestamp {s : Str} {u : Int} (h : parseRfc3339Utc s = .ok u) :
    ∃ t : Timestamp, t.text = s := by
  obtain ⟨f, date, hour, minute, second, hf, hy, hmo, hd, hh, hmi, hs, hfraction, hhour, hminute,
    hsecond, -⟩ := parseRfc3339Utc_eq_ok.1 h
  obtain ⟨hyear, hy0, hy1⟩ := field_eq f.length_year (by decide) hy
  obtain ⟨hmonth, -, -⟩ := field_eq f.length_month (by decide) hmo
  obtain ⟨hday, -, -⟩ := field_eq f.length_day (by decide) hd
  obtain ⟨hhours, hh0, -⟩ := field_eq f.length_hour (by decide) hh
  obtain ⟨hminutes, hmi0, -⟩ := field_eq f.length_minute (by decide) hmi
  obtain ⟨hseconds, hs0, -⟩ := field_eq f.length_second (by decide) hs
  obtain ⟨fraction, hdigits, htail⟩ := fractionOk_iff.1 hfraction
  refine ⟨⟨date, hour, minute, second, fraction, ⟨hy0, by omega⟩, ⟨hh0, hhour⟩, ⟨hmi0, hminute⟩,
    ⟨hs0, hsecond⟩, hdigits⟩, utf8_injective ?_⟩
  rw [utf8_text, hf]
  unfold Fields.bytes
  rw [hyear, hmonth, hday, hhours, hminutes, hseconds, htail]
  rfl

/-! ## The printer -/

theorem padded_eq_fixed {width : Nat} (hwidth : 1 ≤ width) {v : Int} (hv : 0 ≤ v ∧ v < 10 ^ width) :
    padded width v = fixed width v.toNat := by
  have hcast : ((10 ^ width : Nat) : Int) = 10 ^ width := by push_cast; rfl
  have habs : v.natAbs = v.toNat := by omega
  unfold padded
  rw [if_neg (by omega), habs, leftpad_toDigits hwidth (by omega)]

/-- **The second that a timestamp names is printed as it, without the fraction.** -/
theorem unixToRfc3339Utc_unix (t : Timestamp) : unixToRfc3339Utc t.unix = t.whole.text := by
  have hmonth := t.date.month_range
  have hday := t.date.day_range
  have hle := day_le t.date
  have hyear := t.year_range
  have hhour := t.hour_range
  have hminute := t.minute_range
  have hsecond := t.second_range
  have hdays : t.unix / 86400 = Date.number t.date := by
    unfold Timestamp.unix
    omega
  have hsecs : t.unix % 86400 = t.hour * 3600 + t.minute * 60 + t.second := by
    unfold Timestamp.unix
    omega
  have hnonneg : 0 ≤ t.hour * 3600 + t.minute * 60 + t.second := by omega
  unfold unixToRfc3339Utc
  simp only []
  rw [hdays, hsecs, civilFromDays_daysFromCivil, Int.tdiv_eq_ediv_of_nonneg hnonneg,
    Int.tmod_eq_emod_of_nonneg hnonneg, Int.tmod_eq_emod_of_nonneg hnonneg,
    Int.tdiv_eq_ediv_of_nonneg (by omega),
    (by omega : (t.hour * 3600 + t.minute * 60 + t.second) / 3600 = t.hour),
    (by omega : (t.hour * 3600 + t.minute * 60 + t.second) % 3600 / 60 = t.minute),
    (by omega : (t.hour * 3600 + t.minute * 60 + t.second) % 60 = t.second)]
  simp only []
  rw [padded_eq_fixed (by decide) ⟨hyear.1, by omega⟩,
    padded_eq_fixed (by decide) ⟨by omega, by omega⟩,
    padded_eq_fixed (by decide) ⟨by omega, by omega⟩,
    padded_eq_fixed (by decide) ⟨hhour.1, by omega⟩,
    padded_eq_fixed (by decide) ⟨hminute.1, by omega⟩,
    padded_eq_fixed (by decide) ⟨hsecond.1, by omega⟩]
  simp [Timestamp.text, Timestamp.whole, behind]

/-! ## The range -/

theorem year_range_of_number {date : Date} (h : -719528 ≤ Date.number date ∧
    Date.number date ≤ 2932896) : 0 ≤ date.year ∧ date.year ≤ 9999 := by
  obtain ⟨hdoy, hleap, -⟩ := dayOfYear_spec date.month_range date.day_range
  have hm := date.month_range
  have hd := date.day_range
  rw [number_eq] at h
  constructor
  · by_contra hneg
    rcases (by unfold marchYear; split_ifs <;> omega : marchYear date.year date.month < -1 ∨
      marchYear date.year date.month = -1 ∧ 2 < date.month) with hlt | ⟨heq, hmonth⟩
    · have hbefore := dayNumber_lt hlt hdoy hleap (le_refl 0)
      have hvalue : dayNumber (-1) 0 = -719834 := by decide
      omega
    · have hle : dayOfYear date.month date.day ≤ 305 := by
        have := day_le date
        rw [monthLength_eq hm] at hd
        unfold dayOfYear
        unfold marchMonth at hd ⊢
        rw [if_pos hmonth] at hd ⊢
        split_ifs at hd <;> omega
      rw [heq] at h
      unfold dayNumber at h
      omega
  · by_contra hbig
    rcases (by unfold marchYear; split_ifs <;> omega : 9999 < marchYear date.year date.month ∨
      marchYear date.year date.month = 9999 ∧ date.month ≤ 2) with hlt | ⟨heq, hmonth⟩
    · have hmarch : (0 : Int) ≤ 306 ∧ (306 : Int) ≤ 365 := by decide
      have hafter := dayNumber_lt hlt hmarch (by decide) hdoy.1
      have hvalue : dayNumber 9999 306 = 2932897 := by decide
      omega
    · have hge : 306 ≤ dayOfYear date.month date.day := by
        unfold dayOfYear marchMonth
        rw [if_neg (by omega)]
        omega
      rw [heq] at h
      unfold dayNumber at h
      omega

theorem exists_whole {u : Int} (h : -62167219200 ≤ u ∧ u ≤ 253402300799) :
    ∃ t : Timestamp, t.unix = u ∧ t.whole = t := by
  obtain ⟨date, -, hnumber⟩ := daysFromCivil_civilFromDays (u / 86400)
  have hdays : -719528 ≤ Date.number date ∧ Date.number date ≤ 2932896 := by omega
  have hyear := year_range_of_number hdays
  refine ⟨⟨date, u % 86400 / 3600, u % 3600 / 60, u % 60, none, hyear, by omega, by omega, by omega,
    nofun⟩, ?_, rfl⟩
  change Date.number date * 86400 + u % 86400 / 3600 * 3600 + u % 3600 / 60 * 60 + u % 60 = u
  rw [hnumber]
  omega

/-- **RFC 3339 time is a bijection**: a second of the four-digit years is read back from what is
printed for it; what is read prints as itself without its fraction; and exactly the texts of
timestamps are read. -/
theorem rfc3339_bijection :
    (∀ u : Int, -62167219200 ≤ u → u ≤ 253402300799 →
      parseRfc3339Utc (unixToRfc3339Utc u) = .ok u) ∧
    (∀ (s : Str) (u : Int), parseRfc3339Utc s = .ok u →
      ∃ t : Timestamp, t.text = s ∧ unixToRfc3339Utc u = t.whole.text) ∧
    ∀ s : Str, (∃ u, parseRfc3339Utc s = .ok u) ↔ ∃ t : Timestamp, t.text = s := by
  refine ⟨?_, ?_, ?_⟩
  · intro u hlo hhi
    obtain ⟨t, rfl, hwhole⟩ := exists_whole ⟨hlo, hhi⟩
    rw [unixToRfc3339Utc_unix, hwhole, parseRfc3339Utc_text]
  · intro s u h
    obtain ⟨t, rfl⟩ := exists_timestamp h
    rw [parseRfc3339Utc_text] at h
    cases h
    exact ⟨t, rfl, unixToRfc3339Utc_unix t⟩
  · intro s
    constructor
    · rintro ⟨u, h⟩
      exact exists_timestamp h
    · rintro ⟨t, rfl⟩
      exact ⟨t.unix, parseRfc3339Utc_text t⟩

/-- A second in a leap year, and one before the epoch. -/
theorem rfc3339_bijection_leap_day :
    parseRfc3339Utc (unixToRfc3339Utc 951782400) = .ok 951782400 ∧
      parseRfc3339Utc (unixToRfc3339Utc (-1)) = .ok (-1) :=
  ⟨rfc3339_bijection.1 951782400 (by decide) (by decide),
    rfc3339_bijection.1 (-1) (by decide) (by decide)⟩

end McpRe.Core
