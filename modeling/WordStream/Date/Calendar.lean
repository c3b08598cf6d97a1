/-!
# Calendar days

Days of the proleptic Gregorian calendar in the years 1 to 9999, given by month and day or by
week and weekday.
-/

set_option autoImplicit false

namespace WordStream.Date

def isLeapYear (year : Nat) : Bool :=
  year % 4 == 0 && (year % 100 != 0 || year % 400 == 0)

/-- The number of days of a month; there are none outside the months 1 to 12. -/
def daysInMonth (year month : Nat) : Nat :=
  match month with
  | 1 | 3 | 5 | 7 | 8 | 10 | 12 => 31
  | 4 | 6 | 9 | 11 => 30
  | 2 => if isLeapYear year then 29 else 28
  | _ => 0

def daysInYear (year : Nat) : Nat :=
  if isLeapYear year then 366 else 365

def IsDay (year month day : Nat) : Prop :=
  1 ≤ year ∧ year ≤ 9999 ∧ 1 ≤ day ∧ day ≤ daysInMonth year month

instance (year month day : Nat) : Decidable (IsDay year month day) :=
  inferInstanceAs (Decidable (_ ∧ _))

structure Day where
  year : Nat
  month : Nat
  day : Nat
  isDay : IsDay year month day
deriving DecidableEq, Repr

namespace Day

/-- The day with the given year, month and day of the month, if the calendar has it. -/
def of? (year month day : Nat) : Option Day :=
  if isDay : IsDay year month day then some ⟨year, month, day, isDay⟩ else none

/-- Finds month and day of the month from the number of days that passed since the first of a
month. -/
def ofMonthOffset? (year : Nat) : (months : Nat) → (month passed : Nat) → Option Day
  | 0, _, _ => none
  | months + 1, month, passed =>
      if passed < daysInMonth year month then of? year month (passed + 1)
      else ofMonthOffset? year months (month + 1) (passed - daysInMonth year month)

/-- The day that comes a number of days after the first of January. -/
def ofYearOffset? (year passed : Nat) : Option Day :=
  ofMonthOffset? year 12 1 passed

/-- The weekday of the first of January, where Monday is zero. The first day of year 1 was a
Monday. -/
def firstWeekday (year : Nat) : Nat :=
  let years := year - 1
  (365 * years + years / 4 - years / 100 + years / 400) % 7

/-- The number of weeks of a week-numbering year: 53 if it starts on a Thursday, or on a
Wednesday in a leap year. -/
def weeksInYear (year : Nat) : Nat :=
  if firstWeekday year = 3 ∨ (firstWeekday year = 2 ∧ isLeapYear year = true) then 53 else 52

/-- The days from the first of January to the Monday of week 1, the week that holds the first
Thursday of the year; it may lie in the year before. -/
def firstMonday (year : Nat) : Int :=
  if firstWeekday year ≤ 3 then -(firstWeekday year : Int) else 7 - (firstWeekday year : Int)

/-- The day on a weekday, from 1 for Monday to 7 for Sunday, of a numbered week. -/
def ofWeek? (year week weekday : Nat) : Option Day := do
  guard (1 ≤ year && year ≤ 9999 && 1 ≤ week && week ≤ weeksInYear year)
  guard (1 ≤ weekday && weekday ≤ 7)
  let passed := firstMonday year + ((7 * (week - 1) + (weekday - 1) : Nat) : Int)
  if passed < 0 then ofYearOffset? (year - 1) (passed + daysInYear (year - 1)).toNat
  else if passed.toNat < daysInYear year then ofYearOffset? year passed.toNat
  else ofYearOffset? (year + 1) (passed.toNat - daysInYear year)

theorem of?_self (day : Day) : of? day.year day.month day.day = some day := by
  simp [of?, day.isDay]

end Day

end WordStream.Date
