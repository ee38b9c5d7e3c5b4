/-! # Dates, times and timestamps

Dates of the proleptic Gregorian calendar from the year -262143 to the year 262142, with a year zero,
and times of day to the nanosecond.  A leap second is the second 59 with a nanosecond count of at
least `10 ^ 9`, so it stays apart from the second before it and sorts after it.

Every value of these types is a date or a time that exists: the bounds are fields.
-/

namespace BoundSql

namespace Calendar

/-- Whether the year has a 29 February. -/
def isLeapYear (year : Int) : Bool :=
  year % 4 == 0 && (year % 100 != 0 || year % 400 == 0)

/-- The number of days of a month; zero for a month that does not exist. -/
def daysInMonth (year : Int) (month : Nat) : Nat :=
  match month with
  | 1 | 3 | 5 | 7 | 8 | 10 | 12 => 31
  | 4 | 6 | 9 | 11 => 30
  | 2 => if isLeapYear year then 29 else 28
  | _ => 0

/-- The first year. -/
def firstYear : Int := -262143

/-- The last year. -/
def lastYear : Int := 262142

/-- The nanoseconds of a second. -/
def nanosPerSecond : Nat := 1000000000

end Calendar

open Calendar

/-- A day of the calendar. -/
structure Date where
  year : Int
  month : Nat
  day : Nat
  year_lower : firstYear ≤ year
  year_upper : year ≤ lastYear
  month_pos : 1 ≤ month
  month_le : month ≤ 12
  day_pos : 1 ≤ day
  day_le : day ≤ daysInMonth year month
  deriving DecidableEq

/-- The date of a year, a month and a day, if there is one. -/
def Date.of? (year : Int) (month day : Nat) : Option Date :=
  if h : (firstYear ≤ year ∧ year ≤ lastYear) ∧ (1 ≤ month ∧ month ≤ 12) ∧
      (1 ≤ day ∧ day ≤ daysInMonth year month) then
    some ⟨year, month, day, h.1.1, h.1.2, h.2.1.1, h.2.1.2, h.2.2.1, h.2.2.2⟩
  else none

/-- A time of day.  A leap second comes after second 59.  Setting the nanoseconds of a time apart
from its seconds could put one after any other second as well; those times are left out. -/
structure Time where
  hour : Nat
  minute : Nat
  second : Nat
  nano : Nat
  hour_lt : hour < 24
  minute_lt : minute < 60
  second_lt : second < 60
  nano_lt : nano < 2 * nanosPerSecond
  leap : nanosPerSecond ≤ nano → second = 59
  deriving DecidableEq

/-- The time of an hour, a minute, a second and nanoseconds, if there is one. -/
def Time.of? (hour minute second nano : Nat) : Option Time :=
  if h : hour < 24 ∧ minute < 60 ∧ second < 60 ∧ nano < 2 * nanosPerSecond ∧
      (nanosPerSecond ≤ nano → second = 59) then
    some ⟨hour, minute, second, nano, h.1, h.2.1, h.2.2.1, h.2.2.2.1, h.2.2.2.2⟩
  else none

/-- Midnight. -/
def Time.midnight : Time :=
  ⟨0, 0, 0, 0, by decide, by decide, by decide, by decide, by decide⟩

/-- A date and a time of day. -/
structure Timestamp where
  date : Date
  time : Time
  deriving DecidableEq

theorem Date.of?_self (d : Date) : Date.of? d.year d.month d.day = some d := by
  simp [Date.of?, d.year_lower, d.year_upper, d.month_pos, d.month_le, d.day_pos, d.day_le]

theorem Time.of?_self (t : Time) : Time.of? t.hour t.minute t.second t.nano = some t := by
  simp [Time.of?, t.hour_lt, t.minute_lt, t.second_lt, t.nano_lt]
  exact t.leap

end BoundSql
