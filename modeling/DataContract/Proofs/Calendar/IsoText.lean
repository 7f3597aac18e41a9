/-
# Days and moments are read from their texts

The text of a day has a fixed number of digits for each of its fields, and the text of a moment adds
a clock and possibly an offset, each of them with a fraction only if there is one. The reader of the
international notation gives back what was written, whatever single character stands between day
and clock. One thing is lost: an offset of less than a second is read as none.
-/

import DataContract.Calendar.Iso
import DataContract.Proofs.Text.Numeral
import Mathlib.Data.List.TakeWhile

set_option autoImplicit false

namespace DataContract

/-! ### Digits of a fixed count -/

namespace Text

/-- Some digits, in a given count, write a number. -/
structure IsNumeral (cs : List Char) (width n : Nat) : Prop where
  digits : IsDigits cs
  length : cs.length = width
  value : asciiNat cs = n

/-- A text that begins and ends with digits. -/
structure WithinDigits (cs : List Char) : Prop where
  head : ∃ c, cs.head? = some c ∧ isAsciiDigit c = true
  last : ∃ c, cs.getLast? = some c ∧ isAsciiDigit c = true

theorem IsNumeral.lt {cs : List Char} {width n : Nat} (own : IsNumeral cs width n) :
    n < 10 ^ width := by
  obtain ⟨digits, rfl, rfl⟩ := own
  exact asciiNat_lt digits

theorem IsNumeral.ne_nil {cs : List Char} {width n : Nat} (own : IsNumeral cs width n)
    (positive : 0 < width) : cs ≠ [] :=
  List.ne_nil_of_length_pos (own.length ▸ positive)

theorem IsNumeral.withinDigits {cs : List Char} {width n : Nat} (own : IsNumeral cs width n)
    (positive : 0 < width) : WithinDigits cs := by
  have nonempty := own.ne_nil positive
  exact ⟨⟨_, List.head?_eq_some_head nonempty, own.digits _ (List.head_mem nonempty)⟩,
    ⟨_, List.getLast?_eq_some_getLast nonempty, own.digits _ (List.getLast_mem nonempty)⟩⟩

theorem WithinDigits.append {front back : List Char} (hf : WithinDigits front)
    (hb : WithinDigits back) (middle : List Char) : WithinDigits (front ++ (middle ++ back)) := by
  obtain ⟨first, head, firstDigit⟩ := hf.head
  obtain ⟨final, last, finalDigit⟩ := hb.last
  exact ⟨⟨first, by simp [head], firstDigit⟩, ⟨final, by simp [last], finalDigit⟩⟩

end Text

open Text (IsDigits IsNumeral WithinDigits isAsciiDigit asciiNat)

namespace Date

theorem isNumeral_padded {width n : Nat} (positive : 0 < width) (small : n < 10 ^ width) :
    IsNumeral (padded width n).toList width n := by
  have shape : (padded width n).toList =
      List.replicate (width - (Nat.toDigits 10 n).length) '0' ++ Nat.toDigits 10 n := by
    rw [padded, String.toList_ofList, Text.toList_toString]
  have fits := (Nat.length_toDigits_le_iff (by decide) positive).mpr small
  rw [shape]
  refine ⟨(Text.isDigits_zeros _).append (Text.isDigits_toDigits n), ?_, ?_⟩
  · rw [List.length_append, List.length_replicate]
    omega
  · rw [Text.asciiNat_zeros_append, Text.asciiNat_toDigits]

/-- Months have at most 31 days. -/
theorem daysInMonth_le (year month : Nat) : daysInMonth year month ≤ 31 := by
  rw [daysInMonth]
  split
  · split <;> decide
  · split <;> decide

end Date

namespace Iso

theorem readDigits_numeral {cs : List Char} {width n : Nat} (own : IsNumeral cs width n)
    (rest : List Char) : readDigits width (cs ++ rest) = some (n, rest) := by
  obtain ⟨digits, rfl, rfl⟩ := own
  have all : cs.all isAsciiDigit = true := List.all_eq_true.mpr digits
  rw [readDigits, List.take_left, List.drop_left, all]
  simp

/-! ### Days -/

/-- A text has the form of a day: four, two and two digits with hyphens between them. -/
def WritesDay (cs : List Char) (d : Date) : Prop :=
  ∃ year month day, IsNumeral year 4 d.year ∧ IsNumeral month 2 d.month ∧ IsNumeral day 2 d.day ∧
    cs = year ++ '-' :: (month ++ '-' :: day)

namespace WritesDay

variable {cs : List Char} {d : Date}

theorem length (writes : WritesDay cs d) : cs.length = 10 := by
  obtain ⟨year, month, day, ownYear, ownMonth, ownDay, rfl⟩ := writes
  simp [ownYear.length, ownMonth.length, ownDay.length]

theorem withinDigits (writes : WritesDay cs d) : WithinDigits cs := by
  obtain ⟨year, month, day, ownYear, ownMonth, ownDay, rfl⟩ := writes
  have ends := (ownYear.withinDigits (by decide)).append (ownDay.withinDigits (by decide))
    ('-' :: (month ++ ['-']))
  simpa using ends

/-- The hyphen in the fifth place and the digit after it say where the day ends. -/
theorem dayLength (writes : WritesDay cs d) (rest : List Char) :
    dayLength (cs ++ rest) = 10 := by
  have length := writes.length
  obtain ⟨year, month, day, ownYear, ownMonth, ownDay, rfl⟩ := writes
  obtain ⟨first, head, digit⟩ := (ownMonth.withinDigits (by decide)).head
  have number : first ≠ 'W' := Text.ne_of_isAsciiDigit digit (by decide)
  obtain ⟨tail, rfl⟩ := List.head?_eq_some_iff.mp head
  have hyphen : (year ++ '-' :: (first :: tail ++ '-' :: day) ++ rest)[4]? = some '-' := by
    simp [ownYear.length]
  have noWeek : (year ++ '-' :: (first :: tail ++ '-' :: day) ++ rest)[5]? = some first := by
    simp [List.getElem?_append_right, ownYear.length]
  rw [Iso.dayLength]
  simp only [hyphen, noWeek, List.length_append, length]
  rw [if_neg (by simp; omega), if_pos (by simp), if_neg (by simpa using number)]

theorem readDay (writes : WritesDay cs d) : readDay cs = some d := by
  obtain ⟨year, month, day, ownYear, ownMonth, ownDay, rfl⟩ := writes
  obtain ⟨first, head, digit⟩ := (ownMonth.withinDigits (by decide)).head
  have number : first ≠ 'W' := Text.ne_of_isAsciiDigit digit (by decide)
  have readMonth := readDigits_numeral ownMonth ('-' :: day)
  have readDay := readDigits_numeral ownDay []
  rw [List.append_nil] at readDay
  obtain ⟨tail, rfl⟩ := List.head?_eq_some_iff.mp head
  rw [Iso.readDay, readDigits_numeral ownYear]
  simp only [Option.bind_eq_bind, Option.bind_some]
  split
  next shape => exact absurd (List.cons.inj shape).1 number
  next =>
    rw [readMonth]
    simp [readDay]

end WritesDay

/-! ### Clocks -/

variable {cs : List Char} {n : Nat}

/-- A colon after a field leads to the next field. -/
theorem readFields_colon (own : IsNumeral cs 2 n) (field : ClockField) {later : List ClockField}
    (more : later ≠ []) {rest : List Char} (unread : rest ≠ []) (next : Char) (clock : Clock) :
    readFields next (field :: later) true clock (cs ++ ':' :: rest) =
      readFields next later true (clock.set n field) rest := by
  show (readDigits 2 (cs ++ ':' :: rest) >>= _) = _
  rw [readDigits_numeral own]
  cases field <;> simp [more, unread]

/-- The text may end with the digits of a field. -/
theorem readFields_end (own : IsNumeral cs 2 n) (field : ClockField) (later : List ClockField)
    {next : Char} (ascii : next.toNat < 0x80) (clock : Clock) :
    readFields next (field :: later) true clock cs =
      some { clock.set n field with leftover := next != '\x00' } := by
  have read := readDigits_numeral own []
  rw [List.append_nil] at read
  show (readDigits 2 cs >>= _) = _
  rw [read]
  simp [ascii]

/-- A point after a field leads to the fraction of the second. -/
theorem readFields_fraction (own : IsNumeral cs 2 n) {digits : List Char} {fraction : Nat}
    (ownFraction : IsNumeral digits 6 fraction) (next : Char) (clock : Clock) :
    readFields next [.second] true clock (cs ++ '.' :: digits) =
      some { clock.set n .second with microsecond := fraction, leftover := next != '\x00' } := by
  have read := readDigits_numeral ownFraction []
  rw [List.append_nil] at read
  show (readDigits 2 (cs ++ '.' :: digits) >>= _) = _
  rw [readDigits_numeral own]
  simp [ownFraction.length, readLastField, readFraction, read, tenPow]

end Iso

namespace TimeOfDay

theorem isReal_iff (t : TimeOfDay) :
    t.isReal = true ↔ t.hour ≤ 23 ∧ t.minute ≤ 59 ∧ t.second ≤ 59 ∧ t.microsecond ≤ 999999 := by
  simp [isReal, and_assoc]

/-- The time that a number of microseconds makes is real if it is less than a day. -/
theorem isReal_ofMicroseconds {n : Nat} (less : n < microsecondsPerDay) :
    (ofMicroseconds n).isReal = true := by
  rw [microsecondsPerDay] at less
  simp only [isReal_iff, ofMicroseconds]
  omega

theorem text_toList (t : TimeOfDay) :
    t.text.toList = (Date.padded 2 t.hour).toList ++ ':' :: ((Date.padded 2 t.minute).toList ++
      ':' :: ((Date.padded 2 t.second).toList ++ (fractionText t.microsecond).toList)) := by
  simp [text]

/-- The fields of a real time have the digits they are written with. -/
theorem isNumeral_fields {t : TimeOfDay} (real : t.isReal = true) :
    IsNumeral (Date.padded 2 t.hour).toList 2 t.hour ∧
      IsNumeral (Date.padded 2 t.minute).toList 2 t.minute ∧
      IsNumeral (Date.padded 2 t.second).toList 2 t.second ∧
      IsNumeral (Date.padded 6 t.microsecond).toList 6 t.microsecond := by
  obtain ⟨hour, minute, second, microsecond⟩ := (isReal_iff t).mp real
  refine ⟨Date.isNumeral_padded ?_ ?_, Date.isNumeral_padded ?_ ?_, Date.isNumeral_padded ?_ ?_,
    Date.isNumeral_padded ?_ ?_⟩ <;> omega

/-- A fraction is written as a point and six digits, or not at all. -/
theorem fractionText_cases (microsecond : Nat) :
    (microsecond = 0 ∧ (fractionText microsecond).toList = []) ∨
      (fractionText microsecond).toList = '.' :: (Date.padded 6 microsecond).toList := by
  rw [fractionText]
  split
  next zero => exact .inl ⟨by simpa using zero, rfl⟩
  next => exact .inr (by simp)

theorem withinDigits {t : TimeOfDay} (real : t.isReal = true) : WithinDigits t.text.toList := by
  obtain ⟨ownHour, -, ownSecond, ownMicrosecond⟩ := isNumeral_fields real
  have hour := ownHour.withinDigits (by decide)
  rw [text_toList]
  rcases fractionText_cases t.microsecond with ⟨-, none⟩ | point
  · have ends := hour.append (ownSecond.withinDigits (by decide))
      (':' :: ((Date.padded 2 t.minute).toList ++ [':']))
    rw [none]
    simpa using ends
  · have ends := hour.append (ownMicrosecond.withinDigits (by decide))
      (':' :: ((Date.padded 2 t.minute).toList ++
        ':' :: ((Date.padded 2 t.second).toList ++ ['.'])))
    rw [point]
    simpa using ends

end TimeOfDay

namespace Iso

/-- The clock reads a time of day; what follows it is noticed by its first character. -/
theorem readClock_text {t : TimeOfDay} (real : t.isReal = true) (next : Char)
    (ascii : next.toNat < 0x80) :
    readClock next t.text.toList =
      some ⟨t.hour, t.minute, t.second, t.microsecond, next != '\x00'⟩ := by
  obtain ⟨hour, minute, second, microsecond⟩ := TimeOfDay.isNumeral_fields real
  have unread := List.append_ne_nil_of_left_ne_nil (second.ne_nil (by decide))
    (TimeOfDay.fractionText t.microsecond).toList
  rw [readClock, TimeOfDay.text_toList, readFields_colon hour .hour (by decide) (by simp),
    readFields_colon minute .minute (by decide) unread]
  rcases TimeOfDay.fractionText_cases t.microsecond with ⟨zero, none⟩ | point
  · rw [none, List.append_nil, readFields_end second .second [] ascii, zero]
    rfl
  · rw [point, readFields_fraction second microsecond]
    rfl

/-! ### Offsets -/

/-- What is read for an offset: less than a second is read as none. -/
def keptOffset (offset : Int) : Int := if offset.natAbs < 1000000 then 0 else offset

/-- The sign of an offset. -/
def offsetSign (offset : Int) : Char := if offset < 0 then '-' else '+'

/-- An offset is a sign and a clock, which may end with the minutes. -/
theorem readClock_offsetText {offset : Int} (less : offset.natAbs < microsecondsPerDay) :
    ∃ cs, (Moment.offsetText offset).toList = offsetSign offset :: cs ∧ WithinDigits cs ∧
      readClock '\x00' cs = some ⟨offset.natAbs / 1000000 / 3600, offset.natAbs / 1000000 / 60 % 60,
        offset.natAbs / 1000000 % 60, offset.natAbs % 1000000, false⟩ := by
  have real := TimeOfDay.isReal_ofMicroseconds less
  have sign : (if offset < 0 then "-" else "+").toList = [offsetSign offset] := by
    rw [offsetSign]
    split <;> rfl
  by_cases whole : offset.natAbs / 1000000 % 60 = 0 ∧ offset.natAbs % 1000000 = 0
  · obtain ⟨hour, minute, -, -⟩ := TimeOfDay.isNumeral_fields real
    refine ⟨(Date.padded 2 (TimeOfDay.ofMicroseconds offset.natAbs).hour).toList ++
      ':' :: (Date.padded 2 (TimeOfDay.ofMicroseconds offset.natAbs).minute).toList, ?_, ?_, ?_⟩
    · simp [Moment.offsetText, TimeOfDay.ofMicroseconds, whole, sign]
    · simpa using (hour.withinDigits (by decide)).append (minute.withinDigits (by decide)) [':']
    · rw [readClock, readFields_colon hour .hour (by decide) (minute.ne_nil (by decide)),
        readFields_end minute .minute _ (by decide), whole.1, whole.2]
      rfl
  · refine ⟨(TimeOfDay.ofMicroseconds offset.natAbs).text.toList, ?_,
      TimeOfDay.withinDigits real, ?_⟩
    · simp [Moment.offsetText, TimeOfDay.ofMicroseconds, whole, sign, TimeOfDay.text]
    · exact readClock_text real '\x00' (by decide)

/-! ### Times with their offsets -/

/-- A time of day holds nothing that begins an offset. -/
theorem startsOffset_of_mem_text {t : TimeOfDay} (real : t.isReal = true) {c : Char}
    (mem : c ∈ t.text.toList) : startsOffset c = false := by
  have digit {cs : List Char} {width n : Nat} (own : IsNumeral cs width n) (inside : c ∈ cs) :
      startsOffset c = false := by
    have plus := Text.ne_of_isAsciiDigit (own.digits c inside) (d := '+') (by decide)
    have minus := Text.ne_of_isAsciiDigit (own.digits c inside) (d := '-') (by decide)
    have zulu := Text.ne_of_isAsciiDigit (own.digits c inside) (d := 'Z') (by decide)
    simp [startsOffset, plus, minus, zulu]
  obtain ⟨hour, minute, second, microsecond⟩ := TimeOfDay.isNumeral_fields real
  rw [TimeOfDay.text_toList] at mem
  simp only [List.mem_append, List.mem_cons] at mem
  rcases mem with inside | rfl | inside | rfl | inside | inside
  · exact digit hour inside
  · rfl
  · exact digit minute inside
  · rfl
  · exact digit second inside
  · rcases TimeOfDay.fractionText_cases t.microsecond with ⟨-, none⟩ | point
    · rw [none] at inside
      cases inside
    · rw [point] at inside
      rcases List.mem_cons.mp inside with rfl | inside
      · rfl
      · exact digit microsecond inside

/-- The text behind the time of a moment. -/
def zoneText (offset : Option Int) : List Char :=
  (offset.map Moment.offsetText).elim [] String.toList

/-- The fields of a clock add up, but without seconds the fraction does not count. -/
theorem total_of_fields (size : Nat) :
    let seconds : Int := (size / 1000000 / 3600 : Nat) * 3600 +
      (size / 1000000 / 60 % 60 : Nat) * 60 + (size / 1000000 % 60 : Nat)
    (if seconds == 0 then 0 else seconds * 1000000 + (size % 1000000 : Nat)) =
      if size < 1000000 then 0 else (size : Int) := by
  intro seconds
  have whole : seconds = (size / 1000000 : Nat) := by omega
  rw [whole]
  split
  next zero =>
    have zero := eq_of_beq zero
    rw [if_pos (by omega)]
  next more =>
    have more : ((size / 1000000 : Nat) : Int) ≠ 0 := fun same => more (beq_iff_eq.mpr same)
    rw [if_neg (by omega)]
    omega

theorem keptOffset_eq (offset : Int) : keptOffset offset =
    if offset.natAbs < 1000000 then 0
    else if offset < 0 then -(offset.natAbs : Int) else offset.natAbs := by
  rw [keptOffset]
  split
  · rfl
  · split <;> omega

theorem readTime_text {t : TimeOfDay} (real : t.isReal = true) {offset : Option Int}
    (less : ∀ n, offset = some n → n.natAbs < microsecondsPerDay) :
    readTime (t.text.toList ++ zoneText offset) = some (t, offset.map keptOffset) := by
  have none (c : Char) (mem : c ∈ t.text.toList) : (!startsOffset c) = true := by
    rw [startsOffset_of_mem_text real mem]
    rfl
  rw [readTime, List.takeWhile_append_of_pos none, List.dropWhile_append_of_pos none]
  cases offset with
  | none =>
      simp [zoneText, readClock_text real '\x00' (by decide)]
  | some n =>
      obtain ⟨cs, shape, -, read⟩ := readClock_offsetText (less n rfl)
      have sign : startsOffset (offsetSign n) = true := by
        rw [offsetSign]
        split <;> rfl
      simp only [zoneText, Option.map_some, Option.elim_some, shape]
      rw [List.takeWhile_cons_of_neg (by simp [sign]), List.dropWhile_cons_of_neg (by simp [sign]),
        List.append_nil]
      have kept := keptOffset_eq n
      generalize n.natAbs = size at read kept
      have total := total_of_fields size
      by_cases negative : n < 0
      · have minus : offsetSign n = '-' := if_pos negative
        rw [minus, List.head?_cons, Option.getD_some, readClock_text real '-' (by decide), kept,
          if_pos negative]
        show (readClock '\x00' cs).bind _ = _
        rw [read, Option.bind_some, if_neg Bool.false_ne_true, total,
          if_pos (beq_self_eq_true '-')]
        split <;> rfl
      · have plus : offsetSign n = '+' := if_neg negative
        rw [plus, List.head?_cons, Option.getD_some, readClock_text real '+' (by decide), kept,
          if_neg negative]
        show (readClock '\x00' cs).bind _ = _
        rw [read, Option.bind_some, if_neg Bool.false_ne_true, total]
        rfl

end Iso

/-! ### Days and moments -/

theorem Date.writesDay {d : Date} (real : d.isReal = true) : Iso.WritesDay d.text.toList d := by
  have fields : d.year ≤ 9999 ∧ d.month ≤ 12 ∧ d.day ≤ daysInMonth d.year d.month := by
    simp only [isReal, Bool.and_eq_true, decide_eq_true_eq] at real
    omega
  have day := fields.2.2.trans (daysInMonth_le d.year d.month)
  refine ⟨_, _, _, isNumeral_padded (by decide) ?_, isNumeral_padded (by decide) ?_,
    isNumeral_padded (by decide) ?_, by simp [text]⟩ <;> omega

namespace Moment

variable {m : Moment}

theorem isReal_iff (m : Moment) : m.isReal = true ↔ m.date.isReal = true ∧ m.time.isReal = true ∧
    ∀ n, m.offset = some n → n.natAbs < microsecondsPerDay := by
  rw [isReal]
  cases m.offset <;> simp [and_assoc]

theorem textWith_toList (m : Moment) (separator : String) :
    (m.textWith separator).toList = m.date.text.toList ++
      (separator.toList ++ (m.time.text.toList ++ Iso.zoneText m.offset)) := by
  rw [textWith, Iso.zoneText]
  cases m.offset <;> simp

theorem withinDigits_textWith (real : m.isReal = true) (separator : String) :
    WithinDigits (m.textWith separator).toList := by
  obtain ⟨date, time, offset⟩ := (isReal_iff m).mp real
  have day := (Date.writesDay date).withinDigits
  have clock := TimeOfDay.withinDigits time
  rw [textWith_toList, Iso.zoneText]
  cases own : m.offset with
  | none => simpa using day.append clock separator.toList
  | some n =>
      obtain ⟨cs, shape, ends, -⟩ := Iso.readClock_offsetText (offset n own)
      have all := day.append ends
        (separator.toList ++ (m.time.text.toList ++ [Iso.offsetSign n]))
      simpa [shape] using all

end Moment

namespace Iso

/-- A text that has the form of a day is read as the day, if there is one. -/
theorem read?_of_writesDay {s : String} {d : Date} (writes : WritesDay s.toList d) :
    read? s = if d.isReal then some ⟨d, .midnight, none⟩ else none := by
  have length := writes.dayLength []
  rw [List.append_nil] at length
  have whole : s.toList.take 10 = s.toList := List.take_of_length_le writes.length.le
  have nothing : s.toList.drop 10 = [] := List.drop_of_length_le writes.length.le
  have long : ¬ s.toList.length < 7 := by
    rw [writes.length]
    decide
  rw [read?]
  simp only [if_neg long, length, whole, nothing, writes.readDay, Option.bind_eq_bind,
    Option.bind_some]
  simp [Moment.isReal, TimeOfDay.isReal, TimeOfDay.midnight]

/-- Reading gives back the moment that was written, with any character between day and clock. An
offset of less than a second is lost. -/
theorem read?_textWith {m : Moment} (real : m.isReal = true) {separator : String} {c : Char}
    (single : separator.toList = [c]) :
    read? (m.textWith separator) = some { m with offset := m.offset.map keptOffset } := by
  obtain ⟨date, time, offset⟩ := (Moment.isReal_iff m).mp real
  have writes := Date.writesDay date
  have kept : ({ m with offset := m.offset.map keptOffset } : Moment).isReal = true := by
    refine (Moment.isReal_iff _).mpr ⟨date, time, fun n own => ?_⟩
    obtain ⟨n, ownOffset, rfl⟩ := Option.map_eq_some_iff.mp own
    rw [keptOffset]
    split
    · decide
    · exact offset n ownOffset
  have long : ¬ (m.textWith separator).toList.length < 7 := by
    rw [Moment.textWith_toList, List.length_append, writes.length]
    omega
  rw [read?]
  simp only [if_neg long]
  rw [Moment.textWith_toList, writes.dayLength, ← writes.length, List.take_left, List.drop_left,
    single, writes.readDay]
  simp [readTime_text time offset, kept]

end Iso

end DataContract
