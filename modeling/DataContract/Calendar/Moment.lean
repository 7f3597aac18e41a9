/-
# Moments

A day with a time of day, and possibly the offset of its zone from universal
time. Two moments that both carry an offset are equal when they are the same
instant; a moment with an offset never equals one without.
-/

import DataContract.Calendar.Date

set_option autoImplicit false

namespace DataContract

/-- A time of day. -/
structure TimeOfDay where
  hour : Nat
  minute : Nat
  second : Nat
  microsecond : Nat
deriving DecidableEq, Inhabited

namespace TimeOfDay

/-- Midnight. -/
def midnight : TimeOfDay := ⟨0, 0, 0, 0⟩

/-- Whether the fields name a time of day; there are no leap seconds. -/
def isReal (t : TimeOfDay) : Bool :=
  t.hour ≤ 23 && t.minute ≤ 59 && t.second ≤ 59 && t.microsecond ≤ 999999

/-- Microseconds since midnight. -/
def microseconds (t : TimeOfDay) : Nat :=
  ((t.hour * 60 + t.minute) * 60 + t.second) * 1000000 + t.microsecond

/-- The time that lies a number of microseconds after midnight. -/
def ofMicroseconds (n : Nat) : TimeOfDay :=
  let seconds := n / 1000000
  ⟨seconds / 3600, seconds / 60 % 60, seconds % 60, n % 1000000⟩

/-- A fraction of a second, written only if it is not zero. -/
def fractionText (microsecond : Nat) : String :=
  if microsecond == 0 then "" else "." ++ Date.padded 6 microsecond

/-- Hours, minutes and seconds, and the fraction if there is one. -/
def text (t : TimeOfDay) : String :=
  Date.padded 2 t.hour ++ ":" ++ Date.padded 2 t.minute ++ ":" ++ Date.padded 2 t.second
    ++ fractionText t.microsecond

end TimeOfDay

/-- Microseconds in a day. -/
def microsecondsPerDay : Nat := 86400000000

/-- A day and time, with the offset of the zone in microseconds if it is known. -/
structure Moment where
  date : Date
  time : TimeOfDay
  offset : Option Int
deriving DecidableEq, Inhabited

namespace Moment

/-- Whether all fields are real and the offset is shorter than a day. -/
def isReal (m : Moment) : Bool :=
  m.date.isReal && m.time.isReal &&
    match m.offset with
    | none => true
    | some offset => offset.natAbs < microsecondsPerDay

/-- Microseconds on the clock of the zone since the start of the calendar. -/
def clock (m : Moment) : Int := m.date.ordinal * microsecondsPerDay + m.time.microseconds

/-- Whether two moments are the same. -/
def same (a b : Moment) : Bool :=
  match a.offset, b.offset with
  | none, none => a.clock == b.clock
  | some x, some y => a.clock - x == b.clock - y
  | _, _ => false

/-- The text of an offset: sign, hours and minutes, and what is below a minute
only if it is not zero. -/
def offsetText (offset : Int) : String :=
  let t := TimeOfDay.ofMicroseconds offset.natAbs
  let hours := (if offset < 0 then "-" else "+") ++ Date.padded 2 t.hour ++ ":"
    ++ Date.padded 2 t.minute
  if t.second == 0 && t.microsecond == 0 then hours
  else hours ++ ":" ++ Date.padded 2 t.second ++ TimeOfDay.fractionText t.microsecond

/-- The text of a moment with a given text between day and time. -/
def textWith (separator : String) (m : Moment) : String :=
  m.date.text ++ separator ++ m.time.text ++
    match m.offset with
    | none => ""
    | some offset => offsetText offset

/-- The text of a moment in the international notation. -/
def isoText (m : Moment) : String := m.textWith "T"

/-- The text of a moment as it is shown to a reader, with a blank in the middle. -/
def text (m : Moment) : String := m.textWith " "

end Moment

end DataContract
