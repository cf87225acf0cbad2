import Mathlib.Tactic

/-!
# The proleptic Gregorian calendar

Leap years, the lengths of the months, dates, and the day after one. A count of days over this
calendar is pinned by its value at one date and by going up by one from each date to the next.
-/

namespace Lib.Calendar

def IsLeap (year : Int) : Prop := year % 4 = 0 ∧ year % 100 ≠ 0 ∨ year % 400 = 0

instance (year : Int) : Decidable (IsLeap year) :=
  inferInstanceAs (Decidable (year % 4 = 0 ∧ year % 100 ≠ 0 ∨ year % 400 = 0))

def monthLength (year month : Int) : Int :=
  if month = 2 then if IsLeap year then 29 else 28
  else if month = 4 ∨ month = 6 ∨ month = 9 ∨ month = 11 then 30
  else 31

/-- A date that the calendar has. -/
@[ext]
structure Date where
  year : Int
  month : Int
  day : Int
  month_range : 1 ≤ month ∧ month ≤ 12
  day_range : 1 ≤ day ∧ day ≤ monthLength year month
  deriving DecidableEq

theorem monthLength_pos (year month : Int) : 1 ≤ monthLength year month := by
  unfold monthLength
  split_ifs <;> omega

/-- The day after. -/
def Date.next (date : Date) : Date :=
  if hday : date.day < monthLength date.year date.month then
    ⟨date.year, date.month, date.day + 1, date.month_range, by have := date.day_range; omega⟩
  else if hmonth : date.month < 12 then
    ⟨date.year, date.month + 1, 1, by have := date.month_range; omega,
      le_refl 1, monthLength_pos _ _⟩
  else ⟨date.year + 1, 1, 1, by decide, le_refl 1, monthLength_pos _ _⟩

end Lib.Calendar
