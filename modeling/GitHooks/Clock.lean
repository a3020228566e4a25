/-
**The clock.**

A clock counts seconds from the beginning of 1970 in universal time.  For the calendar, years are
taken to begin in March, so that a leap day is the last day of its year; then the days before a
month are a linear function of its number, rounded down, and four hundred years always have the
same length.

Main definitions:

* `Clock.date` — the date of a day;
* `Clock.moment` — the moment of a second.
-/

import GitHooks.Config.Datetime

set_option relaxedAutoImplicit false
set_option autoImplicit false

namespace GitHooks

namespace Clock

/-! ### Days -/

/-- The days of four hundred years. -/
def daysInCycle : Nat := 146097

/-- The days from the first of March of the year zero to the beginning of 1970. -/
def daysBefore1970 : Nat := 719468

/-- The days before a year of a cycle. -/
def daysBeforeYear (year : Nat) : Nat := 365 * year + year / 4 - year / 100

/-- The year of a cycle that a day of the cycle is in. -/
def yearOfDay (day : Nat) : Nat := (day - day / 1460 + day / 36524 - day / 146096) / 365

/-- The days before a month, counted from March. -/
def daysBeforeMonth (month : Nat) : Nat := (153 * month + 2) / 5

/-- The month, counted from March, that a day of a year is in. -/
def monthOfDay (day : Nat) : Nat := (5 * day + 2) / 153

/-- The date of a day, counted from the beginning of 1970. -/
def date (day : Nat) : Datetime.Date :=
  let day := day + daysBefore1970
  let year := yearOfDay (day % daysInCycle)
  let dayOfYear := day % daysInCycle - daysBeforeYear year
  let month := monthOfDay dayOfYear
  let civilYear := day / daysInCycle * 400 + year
  { year := if month < 10 then civilYear else civilYear + 1
    month := if month < 10 then month + 3 else month - 9
    day := dayOfYear - daysBeforeMonth month + 1 }

/-! ### Seconds -/

/-- The time of day of a second. -/
def time (second : Nat) : Datetime.Time where
  hour := second / 3600 % 24
  minute := second / 60 % 60
  second := second % 60
  nanosecond := 0

/-- The moment of a second, counted from the beginning of 1970. -/
def moment (second : Nat) : Datetime where
  date := some (date (second / 86400))
  time := some (time second)
  offset := some .zulu

end Clock

end GitHooks
