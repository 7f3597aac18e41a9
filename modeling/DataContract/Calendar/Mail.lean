/-
# Reading the dates of mail headers

A header date has the words day, month, year, time and zone, possibly after the
name of a weekday, and the reader is lenient about their order: the month may
come before the day, the time before the year, and the year may stand in the
place of the zone. Commas that end a word are dropped.

A text that is no date is refused. A number too large for any calendar is not
refused but out of range, which the reader reports as a failure of its own: zone
first, then the six fields of the date.
-/

import DataContract.Calendar.Moment
import DataContract.Text.Blank
import DataContract.Text.Integer

set_option autoImplicit false

namespace DataContract.Mail

open Text

/-- Why a header date gives no moment. -/
inductive Refusal where
  | notADate
  | outOfRange
deriving DecidableEq

/-- The names of the weekdays. -/
def weekdayNames : List String := ["mon", "tue", "wed", "thu", "fri", "sat", "sun"]

/-- The short names of the months. -/
def monthNames : List String :=
  ["jan", "feb", "mar", "apr", "may", "jun", "jul", "aug", "sep", "oct", "nov", "dec"]

/-- The full names of the months. -/
def fullMonthNames : List String :=
  ["january", "february", "march", "april", "may", "june", "july", "august", "september",
    "october", "november", "december"]

/-- The named zones and their offsets as hours times 100. -/
def zoneNames : List (String × Int) :=
  [("UT", 0), ("UTC", 0), ("GMT", 0), ("Z", 0), ("AST", -400), ("ADT", -300), ("EST", -500),
    ("EDT", -400), ("CST", -600), ("CDT", -500), ("MST", -700), ("MDT", -600), ("PST", -800),
    ("PDT", -700)]

/-- A word in lower case. The names have ASCII letters only, which no other
character becomes. -/
def lower (word : List Char) : String := String.ofList (word.map Char.toLower)

/-- A character in upper case; the characters beyond ASCII that become the letters
of a zone name are the long s and the two ligatures of s and t. -/
def upperChar (c : Char) : List Char :=
  if c.toNat == 0x17f then ['S']
  else if c.toNat == 0xfb05 || c.toNat == 0xfb06 then ['S', 'T']
  else [c.toUpper]

/-- A word in upper case. -/
def upper (word : List Char) : String := String.ofList (word.flatMap upperChar)

/-- The number of a month by its short or full name. -/
def month? (word : List Char) : Option Nat :=
  let name := lower word
  ((monthNames.idxOf? name).or (fullMonthNames.idxOf? name)).map (· + 1)

/-- The parts of a text between the occurrences of a separator. -/
def splitAt (separator : Char) : List Char → List Char → List (List Char)
  | [], part => [part.reverse]
  | c :: rest, part =>
    if c == separator then part.reverse :: splitAt separator rest []
    else splitAt separator rest (c :: part)

/-- Drops a comma that ends a word. -/
def dropComma (word : List Char) : List Char :=
  if word.getLast? == some ',' then word.dropLast else word

/-- Drops the name of the weekday, or what stands before the last comma of the
first word. -/
def dropWeekday : List (List Char) → List (List Char)
  | [] => []
  | first :: rest =>
    if first.getLast? == some ',' || weekdayNames.contains (lower first) then rest
    else if first.contains ',' then
      (first.reverse.takeWhile (· != ',')).reverse :: rest
    else first :: rest

/-- Splits a first word of the form day-month-year when three words are left. -/
def splitDay : List (List Char) → List (List Char)
  | [first, second, third] =>
    match splitAt '-' first [] with
    | [day, month, year] => [day, month, year, second, third]
    | _ => [first, second, third]
  | words => words

/-- Splits the zone off the time when four words are left: at the first plus sign,
or else at the first hyphen, unless the word begins with it. -/
def splitZone : List (List Char) → List (List Char)
  | [day, month, year, time] =>
    let mark := if time.contains '+' then '+' else '-'
    let body := time.takeWhile (· != mark)
    let zone := time.dropWhile (· != mark)
    if body.isEmpty || zone.isEmpty then [day, month, year, time, []]
    else [day, month, year, body, zone]
  | words => words

/-- The words of a header date in their places. -/
structure Fields where
  day : List Char
  month : Nat
  year : List Char
  time : List Char
  zone : List Char

/-- Whether a word holds a character, but not as its first one. -/
def holdsLater (c : Char) (word : List Char) : Bool :=
  word.contains c && word.head? != some c

/-- Puts the words of a header date into their places. -/
def fields? (s : String) : Option Fields :=
  match splitZone (splitDay (dropWeekday (words s.toList))) with
  | day :: month :: year :: time :: zone :: _ => do
    if day.isEmpty || month.isEmpty || year.isEmpty then none
    let (day, month) ←
      match month? month with
      | some number => some (day, number)
      | none => (month? day).map fun number => (month, number)
    let day := dropComma day
    let (year, time) := if holdsLater ':' year then (time, year) else (year, time)
    let year := dropComma year
    let first ← year.head?
    let (year, zone) := if isDigitSign first then (year, zone) else (zone, year)
    if time.isEmpty then none
    some ⟨day, month, year, dropComma time, zone⟩
  | _ => none

/-- Reads hours, minutes and seconds that are separated by colons or points. -/
def time? (word : List Char) : Option (Int × Int × Int) :=
  let parts := splitAt ':' word []
  let parts := if parts.length == 1 && word.contains '.' then splitAt '.' word [] else parts
  match parts with
  | [hour, minute] => do some (← readInteger? hour, ← readInteger? minute, 0)
  | [hour, minute, second] => do
    some (← readInteger? hour, ← readInteger? minute, ← readInteger? second)
  | _ => none

/-- The offset in seconds of a zone word, none where the zone is unknown. The
number `-0` says that nothing is known about the zone. -/
def zoneSeconds? (word : List Char) : Option Int := do
  let name := upper word
  let hundreds ←
    match zoneNames.lookup name with
    | some hundreds => some hundreds
    | none => do
      let number ← readInteger? word
      if number == 0 && word.head? == some '-' then none else some number
  let size := hundreds.natAbs
  let seconds : Int := (size / 100) * 3600 + (size % 100) * 60
  some (if hundreds < 0 then -seconds else seconds)

/-- The century of a year that is written with two digits. -/
def fullYear (year : Int) : Int :=
  if year < 100 then (if 68 < year then year + 1900 else year + 2000) else year

/-- Whether a number fits a signed word of 32 bits. -/
def fitsWord (n : Int) : Bool := -2147483648 ≤ n && n ≤ 2147483647

/-- The most days that an offset may have before it is out of range. -/
def greatestDayCount : Int := 999999999

/-- Checks an offset in seconds and gives it in microseconds. -/
def checkOffset (seconds : Int) : Except Refusal Int :=
  let days := seconds.fdiv 86400
  if days < -greatestDayCount ∨ greatestDayCount < days then .error .outOfRange
  else if 86400 ≤ seconds.natAbs then .error .notADate
  else .ok (seconds * 1000000)

/-- Reads a header date. -/
def read (s : String) : Except Refusal Moment :=
  let parsed := do
    let fields ← fields? s
    let time ← time? fields.time
    let year ← readInteger? fields.year
    let day ← readInteger? fields.day
    some (fields, fullYear year, day, time)
  match parsed with
  | none => .error .notADate
  | some (fields, year, day, hour, minute, second) => do
    let offset ← match zoneSeconds? fields.zone with
      | none => .ok none
      | some seconds => (checkOffset seconds).map some
    let numbers := [year, day, hour, minute, second]
    if numbers.any (!fitsWord ·) then .error .outOfRange
    else if year < 0 || day < 0 || hour < 0 || minute < 0 || second < 0 then .error .notADate
    else
      let moment : Moment :=
        ⟨⟨year.toNat, fields.month, day.toNat⟩, ⟨hour.toNat, minute.toNat, second.toNat, 0⟩, offset⟩
      if moment.isReal then .ok moment else .error .notADate

end DataContract.Mail
