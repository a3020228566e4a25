/-
**Dates and times.**

A moment is a date, a time of day or both, and with both an offset from universal time.  It is
written in one way: four digits of year, two of everything else, the fraction of a second without
trailing zeros.

Main definitions:

* `Datetime` — date, time of day and offset;
* `Datetime.text` — the one way to write it;
* `Datetime.reader` — reading one.
-/

import GitHooks.Reader
import GitHooks.Width

set_option relaxedAutoImplicit false
set_option autoImplicit false

namespace GitHooks

/-- A day of the calendar. -/
structure Datetime.Date where
  year : Nat
  month : Nat
  day : Nat
deriving DecidableEq, Repr, Inhabited

/-- A time of day. -/
structure Datetime.Time where
  hour : Nat
  minute : Nat
  second : Nat
  nanosecond : Nat
deriving DecidableEq, Repr, Inhabited

/-- An offset from universal time. -/
inductive Datetime.Offset where
  | zulu
  | minutes (count : Int)
deriving DecidableEq, Repr, Inhabited

/-- A date, a time of day, or both. -/
structure Datetime where
  date : Option Datetime.Date
  time : Option Datetime.Time
  offset : Option Datetime.Offset
deriving DecidableEq, Repr, Inhabited

namespace Datetime

open Text

/-! ### Writing -/

/-- A number with zeros in front of it up to a width. -/
def padded (width n : Nat) : Text :=
  let digits := ofNat n
  List.replicate (width - digits.length) '0' ++ digits

/-- A fraction of a second, where there is one. -/
def fractionText (nanosecond : Nat) : Text :=
  if nanosecond = 0 then []
  else '.' :: (((padded 9 nanosecond).reverse).dropWhile (· == '0')).reverse

/-- A date as it is written. -/
def Date.text (date : Date) : Text :=
  padded 4 date.year ++ "-" ++ padded 2 date.month ++ "-" ++ padded 2 date.day

/-- A time of day as it is written. -/
def Time.text (time : Time) : Text :=
  padded 2 time.hour ++ ":" ++ padded 2 time.minute ++ ":" ++ padded 2 time.second
    ++ fractionText time.nanosecond

/-- An offset as it is written. -/
def Offset.text : Offset → Text
  | zulu => "Z"
  | minutes count =>
    let size := count.natAbs
    (if count < 0 then "-" else "+") ++ padded 2 (size / 60) ++ ":" ++ padded 2 (size % 60)

/-- A moment as it is written. -/
def text (moment : Datetime) : Text :=
  (moment.date.map Date.text).getD []
    ++ (if moment.date.isSome && moment.time.isSome then "T" else "")
    ++ (moment.time.map Time.text).getD []
    ++ (moment.offset.map Offset.text).getD []

/-! ### Reading -/

/-- A number of exactly `count` digits between two bounds. -/
def number (count low high : Nat) : Reader Char Nat := do
  let n := digitsValue (← Reader.exactly count Char.isDigit)
  Reader.require (low ≤ n && n ≤ high)
  return n

/-- The number of days of a month. -/
def daysIn (year month : Nat) : Nat :=
  if month = 2 then
    if year % 4 = 0 ∧ (year % 100 ≠ 0 ∨ year % 400 = 0) then 29 else 28
  else if month = 4 ∨ month = 6 ∨ month = 9 ∨ month = 11 then 30
  else 31

/-- A date. -/
def readDate : Reader Char Date := do
  let year ← number 4 0 9999
  Reader.only '-'
  let month ← number 2 1 12
  Reader.only '-'
  let day ← number 2 1 (daysIn year month)
  return ⟨year, month, day⟩

/-- A fraction of a second; digits beyond the ninth are dropped. -/
def readFraction : Reader Char Nat := do
  Reader.only '.'
  let digits := (← Reader.takeWhile1 Char.isDigit).take 9
  return digitsValue digits * tenTo (9 - digits.length)

/-- A time of day; a minute may have a second 60. -/
def readTime : Reader Char Time := do
  let hour ← number 2 0 23
  Reader.only ':'
  let minute ← number 2 0 59
  Reader.only ':'
  let second ← number 2 0 60
  let nanosecond ← if (← Reader.peek?) = some '.' then readFraction else pure 0
  return ⟨hour, minute, second, nanosecond⟩

/-- An offset, which is less than a day. -/
def readOffset : Reader Char Offset := do
  match ← Reader.next fun c => c == 'Z' || c == 'z' || c == '+' || c == '-' with
  | '+' => return Offset.minutes (← size)
  | '-' => return Offset.minutes (-(← size))
  | _ => return Offset.zulu
where
  /-- The number of minutes of an offset. -/
  size : Reader Char Int := do
    let hours ← number 2 0 23
    Reader.only ':'
    let minutes ← number 2 0 59
    return ((hours * 60 + minutes : Nat) : Int)

/-- A moment: a date with perhaps a time behind it, or a time. -/
def reader : Reader Char Datetime :=
  (do
    let day ← readDate
    let behind ← Reader.optional? do
      let _ ← Reader.next fun c => c == 'T' || c == 't' || c == ' '
      let moment ← readTime
      return (moment, ← Reader.optional? readOffset)
    match behind with
    | some (moment, shift) => return ⟨some day, some moment, shift⟩
    | none => return ⟨some day, none, none⟩)
  <|> (do return ⟨none, some (← readTime), none⟩)

end Datetime

end GitHooks
