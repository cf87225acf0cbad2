import McpRe.Core.Time
import McpRe.Lib.Calendar

/-!
# Days and dates

The era formulas count the days of the Gregorian calendar. With the year taken to begin in March the
leap day is its last one, and the 400 years of an era fall into centuries, olympiads and years
(`exists_cycle`), which the quotients of `civil_from_days` pick out (`yearOfEra_eq`).

* `civilFromDays_daysFromCivil`, `daysFromCivil_civilFromDays`: the two functions are inverse to each
  other, over all dates and over all days;
* `day_numbers_count`: the numbers are the calendar's count of days, from 1970-01-01.
-/

namespace McpRe.Core

open Lib Lib.Calendar

/-! ## Division -/

theorem tdiv_guarded {y k : Int} (hk : 0 < k) :
    (if 0 ≤ y then y else y - (k - 1)).tdiv k = y / k := by
  by_cases hy : 0 ≤ y
  · rw [if_pos hy, Int.tdiv_eq_ediv_of_nonneg hy]
  · rw [if_neg hy]
    have hneg : y - (k - 1) = -(k - 1 - y) := by ring
    rw [hneg, Int.neg_tdiv, Int.tdiv_eq_ediv_of_nonneg (by omega)]
    -- with `y = k * q + r` both sides are `q`
    have hq := Int.mul_ediv_add_emod y k
    have hr0 := Int.emod_nonneg y hk.ne'
    have hr1 := Int.emod_lt_of_pos y hk
    have hsplit : k - 1 - y = k - 1 - y % k + k * (-(y / k)) := by
      rw [mul_neg]
      omega
    have hquot : (k - 1 - y) / k = -(y / k) := by
      rw [hsplit, Int.add_mul_ediv_left _ _ hk.ne', Int.ediv_eq_zero_of_lt (by omega) (by omega),
        zero_add]
    rw [hquot, neg_neg]

/-! ## The year of an era -/

/-- A day of an era: century, olympiad, year and day, with the leap day at the end of a year. -/
structure Cycle (doe c q s doy : Int) : Prop where
  century : 0 ≤ c ∧ c ≤ 3
  olympiad : 0 ≤ q ∧ q ≤ 24
  year : 0 ≤ s ∧ s ≤ 3
  day : 0 ≤ doy ∧ doy ≤ 365
  leap : doy = 365 → s = 3 ∧ (q = 24 → c = 3)
  eq : doe = 36524 * c + 1461 * q + 365 * s + doy

theorem exists_cycle {doe : Int} (h : 0 ≤ doe ∧ doe ≤ 146096) :
    ∃ c q s doy, Cycle doe c q s doy := by
  obtain ⟨c, hc, ht, hlast⟩ : ∃ c : Int, (0 ≤ c ∧ c ≤ 3) ∧
      (0 ≤ doe - 36524 * c ∧ doe - 36524 * c ≤ 36524) ∧ (doe - 36524 * c = 36524 → c = 3) :=
    ⟨min (doe / 36524) 3, by omega, by omega, by omega⟩
  obtain ⟨q, hq, hu⟩ : ∃ q : Int, (0 ≤ q ∧ q ≤ 24) ∧
      (0 ≤ doe - 36524 * c - 1461 * q ∧ doe - 36524 * c - 1461 * q ≤ 1460) :=
    ⟨(doe - 36524 * c) / 1461, by omega, by omega⟩
  obtain ⟨s, hs, hd, hleap⟩ : ∃ s : Int, (0 ≤ s ∧ s ≤ 3) ∧
      (0 ≤ doe - 36524 * c - 1461 * q - 365 * s ∧ doe - 36524 * c - 1461 * q - 365 * s ≤ 365) ∧
      (doe - 36524 * c - 1461 * q - 365 * s = 365 → s = 3) :=
    ⟨min ((doe - 36524 * c - 1461 * q) / 365) 3, by omega, by omega, by omega⟩
  exact ⟨c, q, s, doe - 36524 * c - 1461 * q - 365 * s, hc, hq, hs, hd, by omega, by omega⟩

/-- **The quotients pick the year out.** Each correction is off by one at most on the last days of a
year, where the day is far from the year's first. -/
theorem yearOfEra_eq {doe c q s doy : Int} (h : Cycle doe c q s doy) :
    (doe - doe / 1460 + doe / 36524 - doe / 146096) / 365 = 100 * c + 4 * q + s := by
  obtain ⟨hc, hq, hs, hd, hleap, heq⟩ := h
  have hcentury : doe / 36524 - doe / 146096 = c := by
    rcases (by omega : doe - 36524 * c < 36524 ∨ doe = 146096) with hlt | hlast
    · have hfirst : doe / 36524 = c := by omega
      have hsecond : doe / 146096 = 0 := by omega
      omega
    · have hthree : c = 3 := by omega
      rw [hlast, hthree]
      rfl
  have hquot : doe / 1460 = 25 * c + q + (24 * c + q + 365 * s + doy) / 1460 := by omega
  have hoff : (24 * c + q + 365 * s + doy) / 1460 = 0 ∧ doy ≤ 364 ∨
      (24 * c + q + 365 * s + doy) / 1460 = 1 ∧ 1 ≤ doy := by omega
  omega

theorem dayOfEra_eq {doe c q s doy : Int} (h : Cycle doe c q s doy) :
    365 * (100 * c + 4 * q + s) + (100 * c + 4 * q + s) / 4 - (100 * c + 4 * q + s) / 100 + doy
      = doe := by
  obtain ⟨hc, hq, hs, -, -, heq⟩ := h
  have hfour : (100 * c + 4 * q + s) / 4 = 25 * c + q := by omega
  have hhundred : (100 * c + 4 * q + s) / 100 = c := by omega
  omega

/-! ## The day of a year that begins in March -/

def marchYear (year month : Int) : Int := if month ≤ 2 then year - 1 else year

def marchMonth (month : Int) : Int := if 2 < month then month - 3 else month + 9

def dayOfYear (month day : Int) : Int := (153 * marchMonth month + 2) / 5 + day - 1

/-- The number of a day, by the year that begins in March. -/
def dayNumber (y doy : Int) : Int := 365 * y + y / 4 - y / 100 + y / 400 + doy - 719468

theorem daysFromCivil_eq {year month day : Int} (hm : 1 ≤ month ∧ month ≤ 12) :
    daysFromCivil year month day = dayNumber (marchYear year month) (dayOfYear month day) := by
  have hmp : 0 ≤ marchMonth month := by
    unfold marchMonth
    split_ifs <;> omega
  unfold daysFromCivil dayNumber dayOfYear
  simp only []
  have hera := tdiv_guarded (y := marchYear year month) (k := 400) (by decide)
  unfold marchYear at hera ⊢
  unfold marchMonth at hmp ⊢
  generalize (if month ≤ 2 then year - 1 else year) = y at hera ⊢
  have hera' : (if 0 ≤ y then y else y - 399).tdiv 400 = y / 400 := hera
  rw [hera', Int.tdiv_eq_ediv_of_nonneg (a := 153 * _ + 2) (by omega),
    Int.tdiv_eq_ediv_of_nonneg (a := y - y / 400 * 400) (by omega),
    Int.tdiv_eq_ediv_of_nonneg (a := y - y / 400 * 400) (by omega)]
  omega

theorem isLeap_iff_cycle {y c q s : Int} (hy : y % 400 = 100 * c + 4 * q + s)
    (hc : 0 ≤ c ∧ c ≤ 3) (hq : 0 ≤ q ∧ q ≤ 24) (hs : 0 ≤ s ∧ s ≤ 3) :
    IsLeap (y + 1) ↔ s = 3 ∧ (q = 24 → c = 3) := by
  unfold IsLeap
  have hfour : (y + 1) % 4 = (s + 1) % 4 := by omega
  have hhundred : (y + 1) % 100 = (4 * q + s + 1) % 100 := by omega
  have hall : (y + 1) % 400 = (100 * c + 4 * q + s + 1) % 400 := by omega
  rw [hfour, hhundred, hall]
  omega

theorem marchMonth_range {month : Int} (hm : 1 ≤ month ∧ month ≤ 12) :
    0 ≤ marchMonth month ∧ marchMonth month ≤ 11 := by
  unfold marchMonth
  split_ifs <;> omega

theorem monthLength_eq {year month : Int} (hm : 1 ≤ month ∧ month ≤ 12) :
    monthLength year month =
      if marchMonth month = 11 then (if IsLeap (marchYear year month + 1) then 29 else 28)
      else (153 * (marchMonth month + 1) + 2) / 5 - (153 * marchMonth month + 2) / 5 := by
  obtain ⟨hlo, hhi⟩ := hm
  unfold monthLength marchYear marchMonth
  interval_cases month <;> simp

/-- **A day of a month is a day of the year**: not past its last one, and with the quotient by 153
giving the month. -/
theorem dayOfYear_spec {year month day : Int} (hm : 1 ≤ month ∧ month ≤ 12)
    (hd : 1 ≤ day ∧ day ≤ monthLength year month) :
    (0 ≤ dayOfYear month day ∧ dayOfYear month day ≤ 365) ∧
      (dayOfYear month day = 365 → IsLeap (marchYear year month + 1)) ∧
      (5 * dayOfYear month day + 2) / 153 = marchMonth month := by
  rw [monthLength_eq hm] at hd
  obtain ⟨h0, h11⟩ := marchMonth_range hm
  unfold dayOfYear
  generalize marchMonth month = mp at h0 h11 hd ⊢
  by_cases hlast : mp = 11
  · subst hlast
    rw [if_pos rfl] at hd
    by_cases hleap : IsLeap (marchYear year month + 1)
    · rw [if_pos hleap] at hd
      exact ⟨by omega, fun _ => hleap, by omega⟩
    · rw [if_neg hleap] at hd
      exact ⟨by omega, fun h => by omega, by omega⟩
  · rw [if_neg hlast] at hd
    exact ⟨by omega, fun h => by omega, by omega⟩

theorem exists_dayOfYear {y doy mp : Int} (h : 0 ≤ doy ∧ doy ≤ 365)
    (hleap : doy = 365 → IsLeap (y + 1)) (hmp : mp = (5 * doy + 2) / 153) :
    ∃ date : Date, date.month = (if mp < 10 then mp + 3 else mp - 9) ∧
      date.day = doy - (153 * mp + 2) / 5 + 1 ∧ marchYear date.year date.month = y ∧
      dayOfYear date.month date.day = doy := by
  obtain ⟨month, hmonth⟩ : ∃ month, month = if mp < 10 then mp + 3 else mp - 9 := ⟨_, rfl⟩
  have hm : 1 ≤ month ∧ month ≤ 12 := by
    rw [hmonth]
    split_ifs <;> omega
  have hmarch : marchMonth month = mp := by
    rw [hmonth]
    unfold marchMonth
    split_ifs <;> omega
  have hyear : marchYear (if month ≤ 2 then y + 1 else y) month = y := by
    unfold marchYear
    split_ifs <;> omega
  have hday : 1 ≤ doy - (153 * mp + 2) / 5 + 1 ∧
      doy - (153 * mp + 2) / 5 + 1 ≤ monthLength (if month ≤ 2 then y + 1 else y) month := by
    rw [monthLength_eq hm, hmarch, hyear]
    refine ⟨by omega, ?_⟩
    by_cases hlast : mp = 11
    · rw [if_pos hlast]
      by_cases hy : IsLeap (y + 1)
      · rw [if_pos hy]
        omega
      · rw [if_neg hy]
        have hne : doy ≠ 365 := fun h => hy (hleap h)
        omega
    · rw [if_neg hlast]
      omega
  refine ⟨⟨if month ≤ 2 then y + 1 else y, month, doy - (153 * mp + 2) / 5 + 1, hm, hday⟩, hmonth,
    rfl, hyear, ?_⟩
  change (153 * marchMonth month + 2) / 5 + (doy - (153 * mp + 2) / 5 + 1) - 1 = doy
  rw [hmarch]
  omega

/-! ## The two functions -/

def Date.number (date : Date) : Int := daysFromCivil date.year date.month date.day

theorem number_eq (date : Date) :
    Date.number date
      = dayNumber (marchYear date.year date.month) (dayOfYear date.month date.day) :=
  daysFromCivil_eq date.month_range

theorem asU32_of_range {n : Int} (h : 0 ≤ n ∧ n < 2 ^ 32) : asU32 n = n :=
  Int.emod_eq_of_lt h.1 h.2

/-- What `civil_from_days` computes, for a day taken apart. -/
theorem civilFromDays_of_cycle {days c q s doy : Int}
    (h : Cycle ((days + 719468) % 146097) c q s doy) :
    ∃ date : Date, civilFromDays days = (date.year, date.month, date.day) ∧
      marchYear date.year date.month = 100 * c + 4 * q + s + (days + 719468) / 146097 * 400 ∧
      dayOfYear date.month date.day = doy := by
  have hera := tdiv_guarded (y := days + 719468) (k := 146097) (by decide)
  have hera' : (if 0 ≤ days + 719468 then days + 719468 else days + 719468 - 146096).tdiv 146097
      = (days + 719468) / 146097 := hera
  have hdoe : days + 719468 - (days + 719468) / 146097 * 146097 = (days + 719468) % 146097 := by
    omega
  have hnonneg : 0 ≤ (days + 719468) % 146097 := by omega
  have hyoe := yearOfEra_eq h
  have hback := dayOfEra_eq h
  have hyoe0 : 0 ≤ 100 * c + 4 * q + s := by
    have := h.century
    have := h.olympiad
    have := h.year
    omega
  have hleap : doy = 365 → IsLeap (100 * c + 4 * q + s + (days + 719468) / 146097 * 400 + 1) := by
    intro hdoy
    have hy : (100 * c + 4 * q + s + (days + 719468) / 146097 * 400) % 400 = 100 * c + 4 * q + s := by
      have := h.century
      have := h.olympiad
      have := h.year
      omega
    exact (isLeap_iff_cycle hy h.century h.olympiad h.year).2 (h.leap hdoy)
  obtain ⟨date, hmonth, hday, hyear, hdoy⟩ := exists_dayOfYear h.day hleap rfl
  refine ⟨date, ?_, hyear, hdoy⟩
  have hd := h.day
  generalize (days + 719468) % 146097 = doe at h hdoe hnonneg hyoe hback
  have hyoe' : (doe - doe.tdiv 1460 + doe.tdiv 36524 - doe.tdiv 146096).tdiv 365
      = 100 * c + 4 * q + s := by
    rw [Int.tdiv_eq_ediv_of_nonneg hnonneg, Int.tdiv_eq_ediv_of_nonneg hnonneg,
      Int.tdiv_eq_ediv_of_nonneg hnonneg, Int.tdiv_eq_ediv_of_nonneg (by omega), hyoe]
  have hrest : doe - (365 * (100 * c + 4 * q + s) + (100 * c + 4 * q + s) / 4
      - (100 * c + 4 * q + s) / 100) = doy := by omega
  have hmp : (5 * doy + 2).tdiv 153 = (5 * doy + 2) / 153 :=
    Int.tdiv_eq_ediv_of_nonneg (by omega)
  have hstart : (153 * ((5 * doy + 2) / 153) + 2).tdiv 5 = (153 * ((5 * doy + 2) / 153) + 2) / 5 :=
    Int.tdiv_eq_ediv_of_nonneg (by omega)
  unfold civilFromDays
  simp only []
  rw [hera', hdoe, hyoe', Int.tdiv_eq_ediv_of_nonneg hyoe0, Int.tdiv_eq_ediv_of_nonneg hyoe0, hrest,
    hmp, hstart, ← hday, ← hmonth]
  have hmonths := date.month_range
  have hdays := date.day_range
  have hlength : monthLength date.year date.month ≤ 31 := by
    unfold monthLength
    split_ifs <;> omega
  rw [asU32_of_range (n := date.day) (by omega), asU32_of_range (n := date.month) (by omega),
    ← hyear]
  congr 1
  unfold marchYear
  split_ifs <;> omega

/-- **Every day is that of the date it is written as.** -/
theorem daysFromCivil_civilFromDays (days : Int) :
    ∃ date : Date, civilFromDays days = (date.year, date.month, date.day) ∧
      Date.number date = days := by
  have hrange : 0 ≤ (days + 719468) % 146097 ∧ (days + 719468) % 146097 ≤ 146096 := by omega
  obtain ⟨c, q, s, doy, h⟩ := exists_cycle hrange
  obtain ⟨date, hcivil, hyear, hdoy⟩ := civilFromDays_of_cycle h
  refine ⟨date, hcivil, ?_⟩
  have hback := dayOfEra_eq h
  rw [number_eq, hyear, hdoy]
  unfold dayNumber
  have := h.century
  have := h.olympiad
  have := h.year
  omega

/-- The days of a year all come before those of the next. -/
theorem dayNumber_lt {y y' doy doy' : Int} (hy : y < y') (h : 0 ≤ doy ∧ doy ≤ 365)
    (hleap : doy = 365 → IsLeap (y + 1)) (h' : 0 ≤ doy') : dayNumber y doy < dayNumber y' doy' := by
  unfold dayNumber
  unfold IsLeap at hleap
  have hmono : 365 * (y + 1) + (y + 1) / 4 - (y + 1) / 100 + (y + 1) / 400
      ≤ 365 * y' + y' / 4 - y' / 100 + y' / 400 := by omega
  have hyear : 365 * y + y / 4 - y / 100 + y / 400 + doy
      < 365 * (y + 1) + (y + 1) / 4 - (y + 1) / 100 + (y + 1) / 400 := by omega
  omega

theorem number_injective {date date' : Date} (h : Date.number date = Date.number date') :
    date = date' := by
  have hspec := dayOfYear_spec date.month_range date.day_range
  have hspec' := dayOfYear_spec date'.month_range date'.day_range
  rw [number_eq, number_eq] at h
  have hyear : marchYear date.year date.month = marchYear date'.year date'.month := by
    rcases lt_trichotomy (marchYear date.year date.month) (marchYear date'.year date'.month)
      with hlt | heq | hlt
    · exact absurd h (dayNumber_lt hlt hspec.1 hspec.2.1 hspec'.1.1).ne
    · exact heq
    · exact absurd h (dayNumber_lt hlt hspec'.1 hspec'.2.1 hspec.1.1).ne'
  have hdoy : dayOfYear date.month date.day = dayOfYear date'.month date'.day := by
    unfold dayNumber at h
    rw [hyear] at h
    omega
  have hmp : marchMonth date.month = marchMonth date'.month := by
    rw [← hspec.2.2, ← hspec'.2.2, hdoy]
  have hmonth : date.month = date'.month := by
    have := date.month_range
    have := date'.month_range
    unfold marchMonth at hmp
    split_ifs at hmp <;> omega
  have hday : date.day = date'.day := by
    unfold dayOfYear at hdoy
    rw [hmp] at hdoy
    omega
  refine Date.ext ?_ hmonth hday
  unfold marchYear at hyear
  rw [hmonth] at hyear
  split_ifs at hyear <;> omega

/-- **Every date is read off the number of its day.** -/
theorem civilFromDays_daysFromCivil (date : Date) :
    civilFromDays (Date.number date) = (date.year, date.month, date.day) := by
  obtain ⟨date', hcivil, hnumber⟩ := daysFromCivil_civilFromDays (Date.number date)
  rw [hcivil, number_injective hnumber]

/-! ## The count of days -/

theorem number_first_of_next {date : Date} (hlast : date.day = monthLength date.year date.month)
    (hmonth : date.month < 12) :
    daysFromCivil date.year (date.month + 1) 1 = Date.number date + 1 := by
  have hm := date.month_range
  rw [number_eq, daysFromCivil_eq (by omega)]
  by_cases htwo : date.month = 2
  · -- a year that begins in March begins
    have hlength : date.day = if IsLeap date.year then 29 else 28 := by
      rw [hlast, htwo]
      rfl
    have hyear : marchYear date.year 2 = date.year - 1 := if_pos (le_refl 2)
    have hnext : marchYear date.year (2 + 1) = date.year := if_neg (by decide)
    have hfirst : dayOfYear (2 + 1) 1 = 0 := by decide
    have hfeb : dayOfYear 2 date.day = 336 + date.day := by
      have hmarch : (153 * marchMonth 2 + 2) / 5 = 337 := by decide
      unfold dayOfYear
      omega
    rw [htwo, hyear, hnext, hfirst, hfeb]
    unfold dayNumber
    unfold IsLeap at hlength
    split_ifs at hlength <;> omega
  · rw [monthLength_eq hm, if_neg (by unfold marchMonth; split_ifs <;> omega)] at hlast
    have hyear : marchYear date.year (date.month + 1) = marchYear date.year date.month := by
      unfold marchYear
      split_ifs <;> omega
    have hmarch : marchMonth (date.month + 1) = marchMonth date.month + 1 := by
      unfold marchMonth
      split_ifs <;> omega
    unfold dayNumber dayOfYear
    rw [hyear, hmarch, hlast]
    omega

theorem number_next (date : Date) : Date.number date.next = Date.number date + 1 := by
  have hm := date.month_range
  have hd := date.day_range
  unfold Date.next
  split_ifs with hday hmonth
  · rw [number_eq, number_eq]
    unfold dayNumber dayOfYear
    simp only []
    omega
  · exact number_first_of_next (by omega) hmonth
  · have htwelve : date.month = 12 := by omega
    have hlast : date.day = 31 := by
      have hlength : monthLength date.year date.month = 31 := by
        rw [htwelve]
        rfl
      omega
    rw [number_eq, number_eq, htwelve, hlast]
    unfold dayNumber dayOfYear marchYear marchMonth
    simp only []
    omega

/-- **The day numbers count the days of the calendar**: none on 1970-01-01, one more on the day after
each date, and every number is that of exactly one date. -/
theorem day_numbers_count :
    daysFromCivil 1970 1 1 = 0 ∧ (∀ date : Date, Date.number date.next = Date.number date + 1) ∧
      Function.Bijective Date.number := by
  refine ⟨by decide, number_next, fun date date' h => number_injective h, fun days => ?_⟩
  obtain ⟨date, -, hnumber⟩ := daysFromCivil_civilFromDays days
  exact ⟨date, hnumber⟩

end McpRe.Core
