/-
# Days and moments in documents

A day is written as year, month and day joined by hyphens. A moment has a `T` or
spaces after the day, then hours, minutes and seconds, a fraction of which six
digits count, and possibly a zone. Month, day and hour may have one digit, but a
day alone is only known by its form if it has two digits in each of its parts.
-/

import DataContract.Calendar.Reality
import DataContract.Number.Power
import DataContract.Value.Text
import DataContract.Yaml.Cursor

set_option autoImplicit false

namespace DataContract.Yaml

/-- A day, or a moment. -/
inductive Timestamp where
  | day (d : Date)
  | moment (m : Moment)
deriving DecidableEq

namespace Timestamp

/-- Reads from `least` to `most` digits. -/
def readDigits (least most : Nat) (cs : List Char) : Option (Nat × List Char) :=
  let digits := (cs.take most).takeWhile Text.isAsciiDigit
  if digits.length < least then none else some (Text.asciiNat digits, cs.drop digits.length)

/-- Reads a character that has to be there. -/
def readMark (mark : Char) : List Char → Option (List Char)
  | c :: rest => if c == mark then some rest else none
  | [] => none

/-- Reads a day. -/
def readDay (least : Nat) (cs : List Char) : Option (Date × List Char) := do
  let (year, cs) ← readDigits 4 4 cs
  let (month, cs) ← readDigits least 2 (← readMark '-' cs)
  let (dayOfMonth, cs) ← readDigits least 2 (← readMark '-' cs)
  return (⟨year, month, dayOfMonth⟩, cs)

/-- Reads what stands between the day and the time: a `T` or some spaces. -/
def readGap : List Char → Option (List Char)
  | 'T' :: rest | 't' :: rest => some rest
  | c :: rest => if isSpace c then some (rest.dropWhile isSpace) else none
  | [] => none

/-- Reads the fraction of a second, which may be missing. -/
def readFraction : List Char → Nat × List Char
  | '.' :: rest =>
    let digits := (rest.takeWhile Text.isAsciiDigit).take 6
    (Text.asciiNat digits * tenPow (6 - digits.length), rest.dropWhile Text.isAsciiDigit)
  | cs => (0, cs)

/-- Reads a zone, which may be missing, to the end of the text. -/
def readZone (cs : List Char) : Option (Option Int) :=
  match cs.dropWhile isSpace with
  | [] => if cs.isEmpty then some none else none
  | ['Z'] => some (some 0)
  | sign :: rest => do
    if sign != '+' && sign != '-' then none
    let (hours, rest) ← readDigits 1 2 rest
    let (minutes, rest) ← match rest with
      | ':' :: rest => readDigits 2 2 rest
      | rest => some (0, rest)
    if !rest.isEmpty then none
    let offset : Int := (hours * 60 + minutes) * 60000000
    return some (if sign == '-' then -offset else offset)

/-- Reads a moment. -/
def readMoment (cs : List Char) : Option Moment := do
  let (date, cs) ← readDay 1 cs
  let (hour, cs) ← readDigits 1 2 (← readGap cs)
  let (minute, cs) ← readDigits 2 2 (← readMark ':' cs)
  let (second, cs) ← readDigits 2 2 (← readMark ':' cs)
  let (microsecond, cs) := readFraction cs
  let offset ← readZone cs
  return ⟨date, ⟨hour, minute, second, microsecond⟩, offset⟩

/-- Reads a day or a moment; its fields need not be real. -/
def read? (cs : List Char) : Option Timestamp :=
  match readDay 1 cs with
  | some (d, []) => some (.day d)
  | _ => (readMoment cs).map .moment

/-- Whether a plain scalar has the form of a day or a moment. -/
def isPlain (cs : List Char) : Bool :=
  match readDay 2 cs with
  | some (_, []) => true
  | _ => (readMoment cs).isSome

/-- What is wrong with the fields of a day or moment. -/
def fault? : Timestamp → Option CalendarFault
  | .day d => d.fault?
  | .moment m => m.fault?

end Timestamp

/-- The wording of a fault in the fields of a day or moment. -/
def calendarFaultText : CalendarFault → String
  | .year year => "year " ++ toString year ++ " is out of range"
  | .month => "month must be in 1..12"
  | .day => "day is out of range for month"
  | .hour => "hour must be in 0..23"
  | .minute => "minute must be in 0..59"
  | .second => "second must be in 0..59"
  | .offset n =>
    "offset must be a timedelta strictly between -timedelta(hours=24) and " ++
      "timedelta(hours=24), not " ++ writtenDuration n ++ "."

end DataContract.Yaml
