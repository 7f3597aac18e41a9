/-
# Reading days and moments in the international notation

The reader takes a day (`2024-02-29`, `20240229`, `2024-W09-4`, `2024W094`), then
either nothing or one separator character and a time with an optional offset.
Where the separator stands is decided from the first characters alone
(`dayLength`), before the day is read.

A clock reading (`readClock`) is hours, minutes and seconds with colons or
without, and a fraction of which six digits count. It stops where the offset
begins, and what is left between the two is reported in `leftover` rather than
refused: it is an error only when no offset follows.
-/

import DataContract.Calendar.Moment
import DataContract.Number.Power
import DataContract.Text.Digit

set_option autoImplicit false

namespace DataContract.Iso

open Text

/-- Reads exactly `count` ASCII digits. -/
def readDigits (count : Nat) (cs : List Char) : Option (Nat × List Char) :=
  let digits := cs.take count
  if digits.length == count && digits.all isAsciiDigit then some (asciiNat digits, cs.drop count)
  else none

/-- The number of characters of the day. A week without its day is told from a
week with one by what follows: after `2024-W09-` a digit in the second place
means that the hyphen was the separator, and after `2024W09` the digits that
follow are taken for times of two digits each. -/
def dayLength (cs : List Char) : Nat :=
  let at? (i : Nat) : Option Char := cs[i]?
  let digitAt (i : Nat) : Bool := (at? i).any isAsciiDigit
  if cs.length == 7 then 7
  else if at? 4 == some '-' then
    if at? 5 == some 'W' then
      if at? 8 == some '-' && !digitAt 10 then 10 else 8
    else 10
  else if at? 4 == some 'W' then
    let end_ := 7 + ((cs.drop 7).takeWhile isAsciiDigit).length
    if end_ < 9 then end_ else if end_ % 2 == 0 then 7 else 8
  else 8

/-- Reads a day that ends where `cs` ends. -/
def readDay (cs : List Char) : Option Date := do
  let (year, rest) ← readDigits 4 cs
  let (hyphens, rest) := match rest with
    | '-' :: rest => (true, rest)
    | rest => (false, rest)
  let skipHyphen (rest : List Char) : Option (List Char) :=
    if hyphens then (if rest.head? == some '-' then some rest.tail else none) else some rest
  match rest with
  | 'W' :: rest =>
    let (week, rest) ← readDigits 2 rest
    let weekday ←
      if rest.isEmpty then some 1
      else do
        let (weekday, _) ← readDigits 1 (← skipHyphen rest)
        some weekday
    Date.ofWeek? year week weekday
  | rest =>
    let (month, rest) ← readDigits 2 rest
    let (day, _) ← readDigits 2 (← skipHyphen rest)
    some ⟨year, month, day⟩

/-- A clock reading: the fields and whether characters were left unread. -/
structure Clock where
  hour : Nat
  minute : Nat
  second : Nat
  microsecond : Nat
  leftover : Bool

/-- Reads a fraction of a second: its first six digits count and the others are
skipped; all of what is there, up to six characters, has to be digits. -/
def readFraction (cs : List Char) : Option (Nat × List Char) := do
  let places := min cs.length 6
  let (value, rest) ← readDigits places cs
  some (value * tenPow (6 - places), rest.dropWhile isAsciiDigit)

/-- Ends a clock reading with the fraction of its second. -/
def readLastField (next : Char) (clock : Clock) (cs : List Char) : Option Clock := do
  let (fraction, rest) ← readFraction cs
  some { clock with microsecond := fraction, leftover := (rest.head?.getD next) != '\x00' }

/-- The fields of a clock that have two digits each. -/
inductive ClockField where
  | hour
  | minute
  | second

/-- A clock with one field set. -/
def Clock.set (clock : Clock) (value : Nat) : ClockField → Clock
  | .hour => { clock with hour := value }
  | .minute => { clock with minute := value }
  | .second => { clock with second := value }

/-- Reads the given fields of a clock. `colons` says whether the fields are set
apart by colons, which the character after the hour decides; `next` is the
character after the text. A point or comma after any field begins the fraction, as
does whatever follows the second. A single ASCII character after a field is left
over. -/
def readFields (next : Char) : List ClockField → Bool → Clock → List Char → Option Clock
  | [], _, clock, _ => some clock
  | field :: later, colons, clock, cs => do
    let (value, rest) ← readDigits 2 cs
    let clock := clock.set value field
    let follow := rest.head?.getD next
    let colons := match field with
      | .hour => follow == ':'
      | _ => colons
    if rest.length ≤ 1 then
      if follow.toNat < 0x80 then some { clock with leftover := follow != '\x00' } else none
    else if colons && follow == ':' then
      if later.isEmpty then readLastField next clock rest.tail
      else readFields next later colons clock rest.tail
    else if follow == '.' || follow == ',' then readLastField next clock rest.tail
    else if colons then none
    else if later.isEmpty then readLastField next clock rest
    else readFields next later colons clock rest

/-- Reads a clock. -/
def readClock (next : Char) (cs : List Char) : Option Clock :=
  readFields next [.hour, .minute, .second] true ⟨0, 0, 0, 0, false⟩ cs

/-- Whether a character begins the offset of a time. -/
def startsOffset (c : Char) : Bool := c == '+' || c == '-' || c == 'Z'

/-- Reads a time and the offset that may follow it, in microseconds. -/
def readTime (cs : List Char) : Option (TimeOfDay × Option Int) := do
  let body := cs.takeWhile (!startsOffset ·)
  let zone := cs.dropWhile (!startsOffset ·)
  let clock ← readClock (zone.head?.getD '\x00') body
  let time : TimeOfDay := ⟨clock.hour, clock.minute, clock.second, clock.microsecond⟩
  match zone with
  | [] => if clock.leftover then none else some (time, none)
  | 'Z' :: rest => if (rest.head?.getD '\x00') == '\x00' then some (time, some 0) else none
  | sign :: rest =>
    let offset ← readClock '\x00' rest
    if offset.leftover then none
    else
      let seconds : Int := offset.hour * 3600 + offset.minute * 60 + offset.second
      let total := if seconds == 0 then 0 else seconds * 1000000 + offset.microsecond
      some (time, some (if sign == '-' then -total else total))

/-- Reads a day or a moment; a day alone stands for its midnight. -/
def read? (s : String) : Option Moment := do
  let cs := s.toList
  if cs.length < 7 then none
  else
    let length := dayLength cs
    let date ← readDay (cs.take length)
    let (time, offset) ←
      match cs.drop length with
      | [] => some (TimeOfDay.midnight, none)
      | _ :: rest => readTime rest
    let moment : Moment := ⟨date, time, offset⟩
    if moment.isReal then some moment else none

end DataContract.Iso
