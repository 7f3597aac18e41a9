/-
# Why fields are no day or time

Fields that are read from a document need not name a day or a time. The first
field that is out of its range decides what is wrong.
-/

import DataContract.Calendar.Moment

set_option autoImplicit false

namespace DataContract

/-- What is wrong with the fields of a day or time. -/
inductive CalendarFault where
  | year (year : Nat)
  | month
  | day
  | hour
  | minute
  | second
  | offset (microseconds : Int)
deriving DecidableEq

/-- What is wrong with a day. -/
def Date.fault? (d : Date) : Option CalendarFault :=
  if d.year < 1 || 9999 < d.year then some (.year d.year)
  else if d.month < 1 || 12 < d.month then some .month
  else if d.day < 1 || daysInMonth d.year d.month < d.day then some .day
  else none

/-- What is wrong with a time of day. -/
def TimeOfDay.fault? (t : TimeOfDay) : Option CalendarFault :=
  if 23 < t.hour then some .hour
  else if 59 < t.minute then some .minute
  else if 59 < t.second then some .second
  else none

/-- What is wrong with an offset: it has to be shorter than a day. -/
def offsetFault? (offset : Option Int) : Option CalendarFault :=
  match offset with
  | none => none
  | some n => if n.natAbs < microsecondsPerDay then none else some (.offset n)

/-- What is wrong with a moment. The offset is looked at first. -/
def Moment.fault? (m : Moment) : Option CalendarFault :=
  offsetFault? m.offset <|> m.date.fault? <|> m.time.fault?

end DataContract
