/-
# Days and moments are dates, and so are their texts

A day or moment is a date as it is, and so is each of the texts that are written for it: the one of
the international notation, the one that is shown, and where the offset is zero the one that ends
with the letter for it, all of them with any blanks around. A text of the form of a day is a date
exactly if there is such a day in the calendar. The reader of header dates, which is asked second,
has no say in this: it refuses every text without blanks.
-/

import DataContract.Json
import DataContract.Proofs.Calendar.IsoText
import DataContract.Value.DateText

set_option autoImplicit false

namespace DataContract

open Text (isBlank isAsciiDigit IsNumeral WithinDigits)

/-! ### Blanks around a text -/

namespace Text

theorem isBlank_of_isAsciiDigit {c : Char} (digit : isAsciiDigit c = true) :
    isBlank c = false := by
  have codes : ∀ code < 58, 48 ≤ code → Range.covers blankRanges code = false := by decide
  obtain ⟨low, high⟩ := isAsciiDigit_iff.mp digit
  exact codes c.toNat (by omega) low

/-- Trimming takes away the blanks around a text that neither begins nor ends with one. -/
theorem trimBlank_surrounded {before cs after : List Char} (hb : ∀ c ∈ before, isBlank c = true)
    (ha : ∀ c ∈ after, isBlank c = true) {first last : Char} (head : cs.head? = some first)
    (hf : isBlank first = false) (final : cs.getLast? = some last) (hl : isBlank last = false) :
    trimBlank (before ++ cs ++ after) = cs := by
  obtain ⟨tail, rfl⟩ := List.head?_eq_some_iff.mp head
  have front : (before ++ (first :: tail) ++ after).dropWhile isBlank = first :: tail ++ after := by
    rw [List.append_assoc, List.dropWhile_append_of_pos hb, List.cons_append,
      List.dropWhile_cons_of_neg (by simp [hf])]
  obtain ⟨front', shape⟩ := List.getLast?_eq_some_iff.mp final
  have back : ∀ c ∈ after.reverse, isBlank c = true := fun c mem => ha c (List.mem_reverse.mp mem)
  rw [trimBlank, front, List.reverse_append, List.dropWhile_append_of_pos back, shape,
    List.reverse_append, List.reverse_singleton, List.singleton_append,
    List.dropWhile_cons_of_neg (by simp [hl])]
  simp

/-- A text without blanks is one word, or none. -/
theorem blankWords_length_le_one {cs : List Char} (solid : ∀ c ∈ cs, isBlank c = false)
    (word : List Char) : (blankWords cs word).length ≤ 1 := by
  induction cs generalizing word with
  | nil =>
      rw [blankWords]
      split <;> simp
  | cons c rest ih =>
      rw [List.forall_mem_cons] at solid
      rw [blankWords, if_neg (by simp [solid.1])]
      exact ih solid.2 (c :: word)

end Text

/-! ### Texts of one word are no header dates -/

namespace Mail

theorem dropWeekday_length_le_one {words : List (List Char)} (short : words.length ≤ 1) :
    (dropWeekday words).length ≤ 1 := by
  cases words with
  | nil => exact short
  | cons first rest =>
      obtain rfl : rest = [] := List.length_eq_zero_iff.mp (by simpa using short)
      rw [dropWeekday]
      split
      · simp
      · split <;> simp

/-- A header date has five words, and splitting makes more of three or four only. -/
theorem fields?_of_solid {s : String} (solid : ∀ c ∈ s.toList, isBlank c = false) :
    fields? s = none := by
  have short := dropWeekday_length_le_one (Text.blankWords_length_le_one solid [])
  rw [fields?, Text.words]
  match dropWeekday (Text.blankWords s.toList []), short with
  | [], _ | [_], _ => rfl

theorem read_of_solid {s : String} (solid : ∀ c ∈ s.toList, isBlank c = false) :
    read s = .error .notADate := by
  rw [read, fields?_of_solid solid]
  rfl

end Mail

/-! ### The calendar -/

namespace Date

/-- The days of the Gregorian calendar. April, June, September and November have thirty days, and
February has 28; in every fourth year it has 29, but of the centuries in every fourth one only. -/
structure InCalendar (d : Date) : Prop where
  year : 1 ≤ d.year
  month : 1 ≤ d.month ∧ d.month ≤ 12
  day : 1 ≤ d.day ∧ d.day ≤ 31
  short : d.month ∈ [4, 6, 9, 11] → d.day ≤ 30
  february : d.month = 2 → d.day ≤ 28 ∨ d.day = 29 ∧ 4 ∣ d.year ∧ (100 ∣ d.year → 400 ∣ d.year)

theorem isLeapYear_iff (year : Nat) :
    isLeapYear year = true ↔ 4 ∣ year ∧ (100 ∣ year → 400 ∣ year) := by
  simp only [isLeapYear, Bool.and_eq_true, Bool.or_eq_true, bne_iff_ne, beq_iff_eq]
  omega

theorem le_daysInMonth_iff (d : Date) : d.day ≤ daysInMonth d.year d.month ↔
    d.day ≤ 31 ∧ (d.month ∈ [4, 6, 9, 11] → d.day ≤ 30) ∧
      (d.month = 2 → d.day ≤ 28 ∨ d.day = 29 ∧ 4 ∣ d.year ∧ (100 ∣ d.year → 400 ∣ d.year)) := by
  rw [daysInMonth, ← isLeapYear_iff]
  split
  next february =>
    have own : d.month = 2 := by simpa using february
    cases isLeapYear d.year <;> simp only [own] <;> simp <;> omega
  next other =>
    have own : d.month ≠ 2 := by simpa using other
    split
    next short =>
      have days : d.month ∈ [4, 6, 9, 11] := by simpa [or_assoc] using short
      simp only [own, days]
      simp
      omega
    next long =>
      have days : ¬ d.month ∈ [4, 6, 9, 11] := by simpa [or_assoc] using long
      simp [own, days]

/-- The days up to the year 9999 are those of the calendar. -/
theorem isReal_iff_inCalendar (d : Date) : d.isReal = true ↔ d.InCalendar ∧ d.year ≤ 9999 := by
  simp only [isReal, Bool.and_eq_true, decide_eq_true_eq, le_daysInMonth_iff]
  constructor
  · rintro ⟨⟨⟨⟨⟨year, early⟩, first⟩, last⟩, day⟩, most, short, february⟩
    exact ⟨⟨year, ⟨first, last⟩, ⟨day, most⟩, short, february⟩, early⟩
  · rintro ⟨⟨year, ⟨first, last⟩, ⟨day, most⟩, short, february⟩, early⟩
    exact ⟨⟨⟨⟨⟨year, early⟩, first⟩, last⟩, day⟩, most, short, february⟩

end Date

/-! ### Texts that are read as dates -/

/-- A text is a date, with any blanks around it. -/
def ReadAsDate (s : String) : Prop :=
  ∀ before after : String, before.toList.all isBlank = true → after.toList.all isBlank = true →
    (Value.text (before ++ s ++ after)).isDate = .ok true

/-- What the reader of the international notation takes is a date. -/
theorem isDate_of_read? {s : String} {m : Moment} {c : Char} (mem : c ∈ s.toList)
    (solid : isBlank c = false)
    (read : Iso.read? (String.ofList (normaliseZone s.toList)) = some m) :
    (Value.text s).isDate = .ok true := by
  have written : ¬ s.toList.all isBlank = true := fun blank => by
    rw [List.all_eq_true.mp blank c mem] at solid
    cases solid
  rw [Value.isDate, isDateText, if_neg written, read]
  rfl

/-- A text that ends with a digit stays as it is, and a letter at its end is spelled out. -/
theorem normaliseZone_surrounded {before cs after : List Char}
    (hb : ∀ c ∈ before, isBlank c = true) (ha : ∀ c ∈ after, isBlank c = true)
    (ends : WithinDigits cs) : normaliseZone (before ++ cs ++ after) = cs := by
  obtain ⟨first, head, firstDigit⟩ := ends.head
  obtain ⟨last, final, lastDigit⟩ := ends.last
  have upper := Text.ne_of_isAsciiDigit lastDigit (d := 'Z') (by decide)
  have lower := Text.ne_of_isAsciiDigit lastDigit (d := 'z') (by decide)
  rw [normaliseZone, Text.trimBlank_surrounded hb ha head (Text.isBlank_of_isAsciiDigit firstDigit)
    final (Text.isBlank_of_isAsciiDigit lastDigit)]
  simp [final, upper, lower]

theorem normaliseZone_letter {before body after : List Char} {letter : Char}
    (own : letter = 'Z' ∨ letter = 'z') (hb : ∀ c ∈ before, isBlank c = true)
    (ha : ∀ c ∈ after, isBlank c = true) (ends : WithinDigits body) :
    normaliseZone (before ++ (body ++ [letter]) ++ after) = body ++ "+00:00".toList := by
  obtain ⟨first, head, digit⟩ := ends.head
  have solid : isBlank letter = false := by
    rcases own with rfl | rfl <;> decide
  have starts : (body ++ [letter]).head? = some first := by simp [head]
  rw [normaliseZone, Text.trimBlank_surrounded hb ha starts (Text.isBlank_of_isAsciiDigit digit)
    List.getLast?_concat solid]
  rcases own with rfl | rfl <;> simp

theorem readAsDate_of_withinDigits {s : String} (ends : WithinDigits s.toList) {m : Moment}
    (read : Iso.read? s = some m) : ReadAsDate s := by
  intro before after hb ha
  obtain ⟨first, head, digit⟩ := ends.head
  have trimmed := normaliseZone_surrounded (List.all_eq_true.mp hb) (List.all_eq_true.mp ha) ends
  refine isDate_of_read? (m := m) (c := first) ?_ (Text.isBlank_of_isAsciiDigit digit) ?_
  · simp [List.mem_of_mem_head? head]
  · rw [String.toList_append, String.toList_append, trimmed, String.ofList_toList, read]

theorem readAsDate_of_letter {body letter : String} (own : letter = "Z" ∨ letter = "z")
    (ends : WithinDigits body.toList) {m : Moment} (read : Iso.read? (body ++ "+00:00") = some m) :
    ReadAsDate (body ++ letter) := by
  intro before after hb ha
  obtain ⟨first, head, digit⟩ := ends.head
  have spelled : normaliseZone (before.toList ++ (body ++ letter).toList ++ after.toList) =
      (body ++ "+00:00").toList := by
    rw [String.toList_append, String.toList_append]
    rcases own with rfl | rfl
    · exact normaliseZone_letter (.inl rfl) (List.all_eq_true.mp hb) (List.all_eq_true.mp ha) ends
    · exact normaliseZone_letter (.inr rfl) (List.all_eq_true.mp hb) (List.all_eq_true.mp ha) ends
  refine isDate_of_read? (m := m) (c := first) ?_ (Text.isBlank_of_isAsciiDigit digit) ?_
  · simp [List.mem_of_mem_head? head]
  · rw [String.toList_append, String.toList_append, spelled, String.ofList_toList, read]

/-- The offset zero is written behind the text of the moment without it. -/
theorem Moment.isoText_of_zero {m : Moment} (real : m.isReal = true) (zero : m.offset = some 0) :
    ∃ body, m.isoText = body ++ "+00:00" ∧ WithinDigits body.toList := by
  obtain ⟨date, time, -⟩ := (isReal_iff m).mp real
  have bare : (⟨m.date, m.time, none⟩ : Moment).isReal = true :=
    (isReal_iff _).mpr ⟨date, time, fun n own => by cases own⟩
  refine ⟨isoText ⟨m.date, m.time, none⟩, ?_, withinDigits_textWith bare "T"⟩
  simp only [isoText, textWith, zero, String.append_empty]
  rfl

/-- A text of the form of a day is one word. -/
theorem solid_of_writesDay {cs : List Char} {d : Date} (writes : Iso.WritesDay cs d) :
    ∀ c ∈ cs, isBlank c = false := by
  obtain ⟨year, month, day, ownYear, ownMonth, ownDay, rfl⟩ := writes
  have digit {part : List Char} {width n : Nat} (own : IsNumeral part width n) {c : Char}
      (mem : c ∈ part) : isBlank c = false := Text.isBlank_of_isAsciiDigit (own.digits c mem)
  intro c mem
  simp only [List.mem_append, List.mem_cons] at mem
  rcases mem with mem | rfl | mem | rfl | mem
  · exact digit ownYear mem
  · decide
  · exact digit ownMonth mem
  · decide
  · exact digit ownDay mem

/-- A text of the form of a day is read as ISO, or by neither reader. -/
theorem isDate_of_writesDay {s : String} {d : Date} (writes : Iso.WritesDay s.toList d) :
    (d.InCalendar → (Value.text s).isDate = .ok true) ∧
      (¬ d.InCalendar → Iso.read? s = none ∧ Mail.read s = .error .notADate ∧
        (Value.text s).isDate = .ok false) := by
  have read := Iso.read?_of_writesDay writes
  have whole : normaliseZone s.toList = s.toList := by
    simpa using normaliseZone_surrounded (List.forall_mem_nil _) (List.forall_mem_nil _)
      writes.withinDigits
  have early : d.year ≤ 9999 := by
    obtain ⟨_, _, _, own, -⟩ := writes
    exact Nat.le_of_lt_succ own.lt
  have real : d.isReal = true ↔ d.InCalendar :=
    (Date.isReal_iff_inCalendar d).trans (and_iff_left early)
  constructor
  · intro day
    rw [if_pos (real.mpr day)] at read
    simpa using readAsDate_of_withinDigits writes.withinDigits read "" "" rfl rfl
  · intro noDay
    rw [if_neg (mt real.mp noDay)] at read
    have mail := Mail.read_of_solid (solid_of_writesDay writes)
    refine ⟨read, mail, ?_⟩
    obtain ⟨first, head, digit⟩ := writes.withinDigits.head
    have written : ¬ s.toList.all isBlank = true := fun blank => by
      have solid := Text.isBlank_of_isAsciiDigit digit
      rw [List.all_eq_true.mp blank first (List.mem_of_mem_head? head)] at solid
      cases solid
    rw [Value.isDate, isDateText, if_neg written, whole, String.ofList_toList, read, mail]
    rfl

/-- Days and moments are dates, and so are the texts that are written for them, with any blanks
around: the one in the international notation, which may end with a letter if the offset is zero,
and the one that stands for the value in a body that is written out. A text of the form of a day is
a date exactly if the calendar has this day; if it has not, both readers refuse the text. -/
theorem Value.isDate_alike :
    (∀ d : Date, d.isReal = true → (Value.date d).isDate = .ok true ∧ ReadAsDate d.text ∧
      ∀ depth, Json.text true depth (.date d) = .ok (Json.quoted d.text)) ∧
    (∀ m : Moment, m.isReal = true → (Value.moment m).isDate = .ok true ∧
      ReadAsDate m.isoText ∧ ReadAsDate m.text ∧
      (∀ depth, Json.text true depth (.moment m) = .ok (Json.quoted m.text)) ∧
      (m.offset = some 0 → ∃ body, m.isoText = body ++ "+00:00" ∧
        ReadAsDate (body ++ "Z") ∧ ReadAsDate (body ++ "z"))) ∧
    (∀ (s : String) (d : Date), Iso.WritesDay s.toList d →
      (d.InCalendar → (Value.text s).isDate = .ok true) ∧
      (¬ d.InCalendar → Iso.read? s = none ∧ Mail.read s = .error .notADate ∧
        (Value.text s).isDate = .ok false)) := by
  refine ⟨fun d real => ⟨rfl, ?_, fun depth => rfl⟩, fun m real => ?_,
    fun s d writes => isDate_of_writesDay writes⟩
  · have writes := Date.writesDay real
    have read := Iso.read?_of_writesDay writes
    rw [if_pos real] at read
    exact readAsDate_of_withinDigits writes.withinDigits read
  · refine ⟨rfl, readAsDate_of_withinDigits (Moment.withinDigits_textWith real "T")
        (Iso.read?_textWith real rfl),
      readAsDate_of_withinDigits (Moment.withinDigits_textWith real " ")
        (Iso.read?_textWith real rfl), fun depth => rfl, fun zero => ?_⟩
    obtain ⟨body, shape, ends⟩ := Moment.isoText_of_zero real zero
    have read : Iso.read? m.isoText = _ := Iso.read?_textWith real rfl
    rw [shape] at read
    exact ⟨body, shape, readAsDate_of_letter (.inl rfl) ends read,
      readAsDate_of_letter (.inr rfl) ends read⟩

/-- The last moment but a few microseconds of a leap day, in universal time, and the same day of a
year that has no such day. -/
theorem isDate_alike_leapDay :
    let m : Moment := ⟨⟨2024, 2, 29⟩, ⟨23, 59, 59, 999993⟩, some 0⟩
    m.isReal = true ∧ m.isoText = "2024-02-29T23:59:59.999993+00:00" ∧ ReadAsDate m.isoText ∧
      m.text = "2024-02-29 23:59:59.999993+00:00" ∧ ReadAsDate m.text ∧
      ReadAsDate "2024-02-29T23:59:59.999993z" ∧
      Iso.WritesDay "2023-02-29".toList ⟨2023, 2, 29⟩ ∧
      (Value.text "2023-02-29").isDate = .ok false := by
  intro m
  obtain ⟨-, moments, days⟩ := Value.isDate_alike
  obtain ⟨-, iso, shown, -, letter⟩ := moments m (by decide)
  obtain ⟨body, shape, -, small⟩ := letter rfl
  have isoText : m.isoText = "2024-02-29T23:59:59.999993+00:00" := by cbv
  obtain rfl : body = "2024-02-29T23:59:59.999993" :=
    (String.append_left_inj "+00:00").mp (shape.symm.trans isoText)
  have digits {cs : List Char} (all : cs.all isAsciiDigit = true) : Text.IsDigits cs :=
    List.all_eq_true.mp all
  have writes : Iso.WritesDay "2023-02-29".toList ⟨2023, 2, 29⟩ :=
    ⟨['2', '0', '2', '3'], ['0', '2'], ['2', '9'], ⟨digits rfl, rfl, rfl⟩, ⟨digits rfl, rfl, rfl⟩,
      ⟨digits rfl, rfl, rfl⟩, rfl⟩
  have noDay : ¬ Date.InCalendar ⟨2023, 2, 29⟩ := fun day =>
    absurd ((Date.isReal_iff_inCalendar _).mpr ⟨day, by decide⟩) (by decide)
  exact ⟨by decide, isoText, iso, by cbv, shown, small, writes,
    ((days _ _ writes).2 noDay).2.2⟩

end DataContract
