/-
# Days of the Gregorian calendar

A `Date` is a year from 1 to 9999 with a month and a day of that month; `isReal`
says when three numbers form one. Days are counted from the first of January of
the year 1, which is day 1 and a Monday.
-/

set_option autoImplicit false

namespace DataContract

/-- A year, month and day. -/
structure Date where
  year : Nat
  month : Nat
  day : Nat
deriving DecidableEq, Inhabited

namespace Date

/-- Whether a year has a 29th of February. -/
def isLeapYear (year : Nat) : Bool :=
  year % 4 == 0 && (year % 100 != 0 || year % 400 == 0)

/-- The number of days of a month. -/
def daysInMonth (year month : Nat) : Nat :=
  if month == 2 then (if isLeapYear year then 29 else 28)
  else if month == 4 || month == 6 || month == 9 || month == 11 then 30
  else 31

/-- Whether the fields name a day of the calendar. -/
def isReal (d : Date) : Bool :=
  1 ≤ d.year && d.year ≤ 9999 && 1 ≤ d.month && d.month ≤ 12 &&
    1 ≤ d.day && d.day ≤ daysInMonth d.year d.month

/-- The number of days before the first of January of a year. -/
def daysBeforeYear (year : Nat) : Nat :=
  let past := year - 1
  past * 365 + past / 4 - past / 100 + past / 400

/-- The number of days of a year before a month. -/
def daysBeforeMonth (year month : Nat) : Nat :=
  ((List.range (month - 1)).map fun earlier => daysInMonth year (earlier + 1)).foldl (· + ·) 0

/-- The count of a day, from 1 for the first day of the year 1. -/
def ordinal (d : Date) : Nat :=
  daysBeforeYear d.year + daysBeforeMonth d.year d.month + d.day

/-- The day of the week of a counted day, from 0 for Monday. -/
def weekdayOf (ordinal : Nat) : Nat := (ordinal + 6) % 7

/-- The month and day of the day with a number in its year, counted from 0, among
the months from `month` on. -/
def ofDayInYear (year : Nat) : List Nat → Nat → Option Date
  | [], _ => none
  | month :: later, rest =>
    if rest < daysInMonth year month then some ⟨year, month, rest + 1⟩
    else ofDayInYear year later (rest - daysInMonth year month)

/-- The day with a given count if it falls into the given year or the next one. -/
def ofOrdinalFrom (year ordinal : Nat) : Option Date :=
  let start (y : Nat) := daysBeforeYear y + 1
  let year := if ordinal < start (year + 1) then year else year + 1
  if ordinal < start year then none
  else ofDayInYear year (List.range' 1 12) (ordinal - start year)

/-- The number of weeks of a week-numbering year: 53 if it begins on a Thursday,
or on a Wednesday in a leap year. -/
def weeksInYear (year : Nat) : Nat :=
  let first := weekdayOf (daysBeforeYear year + 1)
  if first == 3 || (first == 2 && isLeapYear year) then 53 else 52

/-- The day given by a week-numbering year, a week and a day of the week from 1
for Monday. The first week is the one that holds the first Thursday. -/
def ofWeek? (year week weekday : Nat) : Option Date :=
  if 1 ≤ year && year ≤ 9999 && 1 ≤ week && week ≤ weeksInYear year &&
      1 ≤ weekday && weekday ≤ 7 then
    let newYear := daysBeforeYear year + 1
    let first := weekdayOf newYear
    let monday : Int := (newYear : Int) - first + (if 3 < first then 7 else 0)
    let ordinal := monday + ((week - 1) * 7 + (weekday - 1) : Nat)
    if ordinal < 1 then none
    else
      let day := ofOrdinalFrom (if ordinal.toNat < newYear then year - 1 else year) ordinal.toNat
      day.filter isReal
  else none

/-- A number with leading zeros up to a width. -/
def padded (width n : Nat) : String :=
  let digits := (toString n).toList
  String.ofList (List.replicate (width - digits.length) '0' ++ digits)

/-- The text of a day: year, month and day joined by hyphens. -/
def text (d : Date) : String :=
  padded 4 d.year ++ "-" ++ padded 2 d.month ++ "-" ++ padded 2 d.day

end Date

end DataContract
