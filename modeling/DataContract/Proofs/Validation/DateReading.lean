/-
# When reading a date fails

Every value either is a date or is none, with one exception: a text that is no moment in the
international notation, has the form of a header date, and writes a number there that is too
large. A zone may be too far away, or another number may not fit a word of 32 bits. Both take
ten digits in the text at least, so shorter texts always get an answer.
-/

import DataContract.Proofs.Text.Numeral
import DataContract.Proofs.Validation.Checks

set_option autoImplicit false

namespace DataContract

namespace Text

/-- The words of a text stand in it, in their order. -/
theorem blankWords_sublist (cs word : List Char) :
    ∀ w ∈ blankWords cs word, w.Sublist (word.reverse ++ cs) := by
  induction cs generalizing word with
  | nil =>
      intro w mem
      rw [blankWords] at mem
      split at mem
      · cases mem
      · obtain rfl := List.mem_singleton.mp mem
        exact List.sublist_append_left _ _
  | cons c rest ih =>
      have later (w : List Char) (mem : w ∈ blankWords rest []) :
          w.Sublist (word.reverse ++ c :: rest) :=
        (ih [] w mem).trans ((List.sublist_cons_self c rest).trans (List.sublist_append_right _ _))
      intro w mem
      rw [blankWords] at mem
      split at mem
      · split at mem
        · exact later w mem
        · rcases List.mem_cons.mp mem with rfl | mem
          · exact List.sublist_append_left _ _
          · exact later w mem
      · simpa using ih (c :: word) w mem

theorem blankWords_of_blank {cs : List Char} (blank : ∀ c ∈ cs, isBlank c = true) :
    blankWords cs [] = [] := by
  induction cs with
  | nil => rfl
  | cons c rest ih =>
      rw [List.forall_mem_cons] at blank
      rw [blankWords, if_pos blank.1]
      exact ih blank.2

end Text

open Text (readInteger? isDigit isBlank words)

namespace Mail

/-! ## Where the words of a header date stand -/

theorem splitAt_sublist (separator : Char) (cs part : List Char) :
    ∀ w ∈ splitAt separator cs part, w.Sublist (part.reverse ++ cs) := by
  induction cs generalizing part with
  | nil =>
      intro w mem
      obtain rfl := List.mem_singleton.mp mem
      exact List.sublist_append_left _ _
  | cons c rest ih =>
      intro w mem
      rw [splitAt] at mem
      split at mem
      · rcases List.mem_cons.mp mem with rfl | mem
        · exact List.sublist_append_left _ _
        · exact (ih [] w mem).trans
            ((List.sublist_cons_self c rest).trans (List.sublist_append_right _ _))
      · simpa using ih (c :: part) w mem

/-- Words that all stand in a text. -/
def StandIn (text : List Char) (words : List (List Char)) : Prop := ∀ w ∈ words, w.Sublist text

namespace StandIn

variable {text : List Char} {words : List (List Char)}

theorem dropWeekday (stand : StandIn text words) : StandIn text (dropWeekday words) := by
  cases words with
  | nil => exact stand
  | cons first rest =>
      obtain ⟨own, others⟩ := List.forall_mem_cons.mp stand
      rw [Mail.dropWeekday]
      split
      · exact others
      · split
        · refine List.forall_mem_cons.mpr ⟨List.Sublist.trans ?_ own, others⟩
          rw [← List.reverse_sublist, List.reverse_reverse]
          exact List.takeWhile_sublist _
        · exact stand

theorem splitDay (stand : StandIn text words) : StandIn text (splitDay words) := by
  rw [Mail.splitDay.eq_def]
  split
  next first second third =>
    obtain ⟨own, others⟩ := List.forall_mem_cons.mp stand
    split
    next day month year split =>
      have parts (w : List Char) (mem : w ∈ [day, month, year]) : w.Sublist text :=
        List.Sublist.trans (by simpa using splitAt_sublist '-' first [] w (split ▸ mem)) own
      rw [show [day, month, year, second, third] = [day, month, year] ++ [second, third] from rfl]
      exact List.forall_mem_append.mpr ⟨parts, others⟩
    · exact stand
  · exact stand

theorem splitZone (stand : StandIn text words) : StandIn text (splitZone words) := by
  rw [Mail.splitZone.eq_def]
  split
  next day month year time =>
    obtain ⟨dayIn, monthIn, yearIn, timeIn, -⟩ :
        day.Sublist text ∧ month.Sublist text ∧ year.Sublist text ∧ time.Sublist text ∧ True := by
      simpa [StandIn] using stand
    dsimp only
    generalize (if time.contains '+' then '+' else '-') = mark
    have bodyIn := (List.takeWhile_sublist (· != mark)).trans timeIn
    have zoneIn := (List.dropWhile_sublist (· != mark)).trans timeIn
    split <;> simp [StandIn, dayIn, monthIn, yearIn, timeIn, bodyIn, zoneIn]
  · exact stand

end StandIn

theorem dropComma_sublist (word : List Char) : (dropComma word).Sublist word := by
  rw [dropComma]
  split
  · exact List.dropLast_sublist word
  · exact List.Sublist.refl word

/-- The words of a header date stand in the text. -/
theorem fields?_sublist {s : String} {fields : Fields} (own : fields? s = some fields) :
    fields.day.Sublist s.toList ∧ fields.year.Sublist s.toList ∧ fields.time.Sublist s.toList ∧
      fields.zone.Sublist s.toList := by
  have stand : StandIn s.toList (splitZone (splitDay (dropWeekday (words s.toList)))) :=
    StandIn.splitZone (StandIn.splitDay (StandIn.dropWeekday (Text.blankWords_sublist s.toList [])))
  rw [fields?] at own
  split at own
  next day month year time zone more shape =>
    rw [shape] at stand
    obtain ⟨dayIn, monthIn, yearIn, timeIn, zoneIn, -⟩ :
        day.Sublist s.toList ∧ month.Sublist s.toList ∧ year.Sublist s.toList ∧
          time.Sublist s.toList ∧ zone.Sublist s.toList ∧ StandIn s.toList more := by
      simpa [StandIn] using stand
    -- The time may stand before the year.
    have clocked : (if holdsLater ':' year then (time, year) else (year, time)).1.Sublist s.toList ∧
        (if holdsLater ':' year then (time, year) else (year, time)).2.Sublist s.toList := by
      split
      · exact ⟨timeIn, yearIn⟩
      · exact ⟨yearIn, timeIn⟩
    simp only at own
    generalize (if holdsLater ':' year then (time, year) else (year, time)) = placed at own clocked
    have commas (word : List Char) (stands : word.Sublist s.toList) :=
      (dropComma_sublist word).trans stands
    -- The month may stand before the day, and the zone before the year.
    obtain ⟨word, number, first, wordIn, rfl⟩ : ∃ word number first, word.Sublist s.toList ∧
        fields = ⟨dropComma word, number,
          (if Text.isDigitSign first then (dropComma placed.1, zone)
            else (zone, dropComma placed.1)).1, dropComma placed.2,
          (if Text.isDigitSign first then (dropComma placed.1, zone)
            else (zone, dropComma placed.1)).2⟩ := by
      split at own
      · cases own
      split at own <;> obtain ⟨⟨word, number⟩, ordered, own⟩ := Option.bind_eq_some_iff.mp own
      all_goals
        obtain ⟨first, -, own⟩ := Option.bind_eq_some_iff.mp own
        split at own <;> cases own
      · cases ordered
        exact ⟨_, _, first, dayIn, rfl⟩
      · obtain ⟨_, -, same⟩ := Option.map_eq_some_iff.mp ordered
        cases same
        exact ⟨_, _, first, monthIn, rfl⟩
    have yearWord := commas placed.1 clocked.1
    refine ⟨commas word wordIn, ?_, commas _ clocked.2, ?_⟩
    · split
      · exact yearWord
      · exact zoneIn
    · split
      · exact zoneIn
      · exact yearWord
  · cases own

/-! ## What the numbers of a header date come to -/

theorem natAbs_lt_of_sublist {part word : List Char} (stands : part.Sublist word) {n : Int}
    (read : readInteger? part = some n) : n.natAbs < 10 ^ word.countP isDigit :=
  (Text.natAbs_readInteger?_lt read).trans_le (Nat.pow_le_pow_right (by decide) stands.countP_le)

theorem time?_lt {word : List Char} {hour minute second : Int}
    (own : time? word = some (hour, minute, second)) :
    ∀ n ∈ [hour, minute, second], n.natAbs < 10 ^ word.countP isDigit := by
  have stand : StandIn word
      (if (splitAt ':' word []).length == 1 && word.contains '.' then splitAt '.' word []
        else splitAt ':' word []) := by
    split <;> exact splitAt_sublist _ word []
  rw [time?] at own
  generalize (if (splitAt ':' word []).length == 1 && word.contains '.' then splitAt '.' word []
    else splitAt ':' word []) = parts at own stand
  split at own
  next hourWord minuteWord =>
    obtain ⟨h, hourRead, own⟩ := Option.bind_eq_some_iff.mp own
    obtain ⟨m, minuteRead, same⟩ := Option.bind_eq_some_iff.mp own
    cases same
    have hourSmall := natAbs_lt_of_sublist (stand _ (by simp)) hourRead
    have minuteSmall := natAbs_lt_of_sublist (stand _ (by simp)) minuteRead
    simp [hourSmall, minuteSmall]
  next hourWord minuteWord secondWord =>
    obtain ⟨h, hourRead, own⟩ := Option.bind_eq_some_iff.mp own
    obtain ⟨m, minuteRead, own⟩ := Option.bind_eq_some_iff.mp own
    obtain ⟨sec, secondRead, same⟩ := Option.bind_eq_some_iff.mp own
    cases same
    have hourSmall := natAbs_lt_of_sublist (stand _ (by simp)) hourRead
    have minuteSmall := natAbs_lt_of_sublist (stand _ (by simp)) minuteRead
    have secondSmall := natAbs_lt_of_sublist (stand _ (by simp)) secondRead
    simp [hourSmall, minuteSmall, secondSmall]
  · cases own

/-- The zones with names are near. -/
theorem natAbs_le_of_lookup_zoneNames {name : String} {hundreds : Int}
    (own : zoneNames.lookup name = some hundreds) : hundreds.natAbs ≤ 800 := by
  have all : ∀ zone ∈ zoneNames, zone.2.natAbs ≤ 800 := by decide
  obtain ⟨before, after, split, -⟩ := List.lookup_eq_some_iff.mp own
  exact all (name, hundreds) (split ▸ by simp)

/-- A zone is as far away as its number says, or has a name. -/
theorem zoneSeconds?_natAbs_le {word : List Char} {seconds : Int}
    (own : zoneSeconds? word = some seconds) :
    seconds.natAbs ≤ 60 * max 800 (10 ^ word.countP isDigit) := by
  have minutes (hundreds : Int) :
      (if hundreds < 0 then
        -((hundreds.natAbs : Int) / 100 * 3600 + (hundreds.natAbs : Int) % 100 * 60)
      else (hundreds.natAbs : Int) / 100 * 3600 + (hundreds.natAbs : Int) % 100 * 60).natAbs ≤
        60 * hundreds.natAbs := by
    split <;> omega
  rw [zoneSeconds?] at own
  split at own
  next hundreds known =>
    cases own
    have near := natAbs_le_of_lookup_zoneNames known
    exact (minutes hundreds).trans (Nat.mul_le_mul_left 60 (near.trans (Nat.le_max_left _ _)))
  · obtain ⟨number, read, own⟩ := Option.bind_eq_some_iff.mp own
    split at own <;> cases own
    have size := (Text.natAbs_readInteger?_lt read).le
    exact (minutes number).trans (Nat.mul_le_mul_left 60 (size.trans (Nat.le_max_right _ _)))

/-! ## Numbers that are too large -/

/-- A text has the form of a header date, with numbers where it needs them. -/
structure HasNumbers (s : String) (fields : Fields) (year day hour minute second : Int) : Prop where
  shape : fields? s = some fields
  time : time? fields.time = some (hour, minute, second)
  year : ∃ written, readInteger? fields.year = some written ∧ fullYear written = year
  day : readInteger? fields.day = some day

/-- An offset in seconds has more than 999999999 days. -/
def FarOffset (seconds : Int) : Prop :=
  seconds < -(999999999 * 86400) ∨ 1000000000 * 86400 ≤ seconds

/-- A header date has a number that is too large: the offset of its zone is far, or is known to be
less than a day, or is not known, and another number does not fit a word of 32 bits. -/
inductive Oversized (s : String) : Prop where
  | zone {fields : Fields} {year day hour minute second seconds : Int}
      (own : HasNumbers s fields year day hour minute second)
      (known : zoneSeconds? fields.zone = some seconds) (far : FarOffset seconds)
  | number {fields : Fields} {year day hour minute second n : Int}
      (own : HasNumbers s fields year day hour minute second)
      (near : ∀ seconds, zoneSeconds? fields.zone = some seconds → seconds.natAbs < 86400)
      (mem : n ∈ [year, day, hour, minute, second]) (wide : n < -2147483648 ∨ 2147483648 ≤ n)

theorem fitsWord_eq_false_iff (n : Int) :
    (!fitsWord n) = true ↔ n < -2147483648 ∨ 2147483648 ≤ n := by
  simp only [fitsWord, Bool.not_eq_true', Bool.and_eq_false_iff, decide_eq_false_iff_not]
  omega

theorem farOffset_iff (seconds : Int) :
    FarOffset seconds ↔
      seconds.fdiv 86400 < -greatestDayCount ∨ greatestDayCount < seconds.fdiv 86400 := by
  rw [FarOffset, greatestDayCount, Int.fdiv_eq_ediv_of_nonneg seconds (by decide)]
  omega

/-- An offset is out of range, or a day or more, or it counts. -/
theorem checkOffset_cases (seconds : Int) :
    (FarOffset seconds ∧ checkOffset seconds = .error .outOfRange) ∨
      (¬ FarOffset seconds ∧ 86400 ≤ seconds.natAbs ∧ checkOffset seconds = .error .notADate) ∨
      (seconds.natAbs < 86400 ∧ checkOffset seconds = .ok (seconds * 1000000)) := by
  rw [checkOffset]
  by_cases far : FarOffset seconds
  · exact .inl ⟨far, if_pos ((farOffset_iff seconds).mp far)⟩
  · rw [if_neg (mt (farOffset_iff seconds).mpr far)]
    by_cases long : 86400 ≤ seconds.natAbs
    · exact .inr (.inl ⟨far, long, if_pos long⟩)
    · exact .inr (.inr ⟨Nat.lt_of_not_le long, if_neg long⟩)

/-- The numbers are looked at before they are taken for a moment. -/
theorem wide_iff {numbers : List Int} {rest : Except Refusal Moment}
    (other : rest ≠ .error .outOfRange) :
    (if numbers.any (!fitsWord ·) then .error .outOfRange else rest) = .error .outOfRange ↔
      ∃ n ∈ numbers, n < -2147483648 ∨ 2147483648 ≤ n := by
  have wide : (numbers.any (!fitsWord ·)) = true ↔
      ∃ n ∈ numbers, n < -2147483648 ∨ 2147483648 ≤ n := by
    simp only [List.any_eq_true, fitsWord_eq_false_iff]
  rw [← wide]
  split
  next own => simp [own]
  next own => simp [own, other]

/-- The zone is looked at before the other numbers are. -/
theorem read_outOfRange_of_hasNumbers {s : String} {fields : Fields}
    {year day hour minute second : Int} (own : HasNumbers s fields year day hour minute second) :
    read s = .error .outOfRange ↔
      (∃ seconds, zoneSeconds? fields.zone = some seconds ∧ FarOffset seconds) ∨
        (∀ seconds, zoneSeconds? fields.zone = some seconds → seconds.natAbs < 86400) ∧
          ∃ n ∈ [year, day, hour, minute, second], n < -2147483648 ∨ 2147483648 ≤ n := by
  obtain ⟨shape, time, ⟨written, readYear, rfl⟩, readDay⟩ := own
  rw [read, shape]
  simp only [Option.bind_eq_bind, Option.bind_some, time, readYear, readDay]
  cases zone : zoneSeconds? fields.zone with
  | none =>
      refine Iff.trans (wide_iff ?_) (by simp)
      split
      · nofun
      · split <;> nofun
  | some seconds =>
      have inRange (near : seconds.natAbs < 86400) : ¬ FarOffset seconds := by
        rw [FarOffset]
        omega
      rcases checkOffset_cases seconds with
        ⟨far, outcome⟩ | ⟨notFar, long, outcome⟩ | ⟨near, outcome⟩
      · simp only [outcome]
        exact iff_of_true rfl (.inl ⟨seconds, rfl, far⟩)
      · simp only [outcome]
        refine iff_of_false nofun ?_
        rintro (⟨_, same, far⟩ | ⟨near, -⟩)
        · cases same
          exact notFar far
        · exact absurd (near seconds rfl) (Nat.not_lt_of_le long)
      · simp only [outcome]
        refine Iff.trans (wide_iff ?_) (by simp [near, inRange near])
        split
        · nofun
        · split <;> nofun

/-- A text is out of range as a header date exactly if it has a number that is too large. -/
theorem read_outOfRange_iff (s : String) : read s = .error .outOfRange ↔ Oversized s := by
  constructor
  · intro failed
    obtain ⟨fields, year, day, hour, minute, second, own⟩ :
        ∃ fields year day hour minute second, HasNumbers s fields year day hour minute second := by
      rw [read] at failed
      split at failed
      · cases failed
      next parsed =>
        obtain ⟨fields, shape, parsed⟩ := Option.bind_eq_some_iff.mp parsed
        obtain ⟨⟨hour, minute, second⟩, time, parsed⟩ := Option.bind_eq_some_iff.mp parsed
        obtain ⟨written, readYear, parsed⟩ := Option.bind_eq_some_iff.mp parsed
        obtain ⟨day, readDay, -⟩ := Option.bind_eq_some_iff.mp parsed
        exact ⟨fields, _, day, hour, minute, second, shape, time, ⟨written, readYear, rfl⟩, readDay⟩
    rcases (read_outOfRange_of_hasNumbers own).mp failed with
      ⟨seconds, known, far⟩ | ⟨near, n, mem, wide⟩
    · exact .zone own known far
    · exact .number own near mem wide
  · intro oversized
    cases oversized with
    | zone own known far => exact (read_outOfRange_of_hasNumbers own).mpr (.inl ⟨_, known, far⟩)
    | number own near mem wide =>
        exact (read_outOfRange_of_hasNumbers own).mpr (.inr ⟨near, _, mem, wide⟩)

/-- A number that is too large takes ten digits at least. -/
theorem Oversized.ten_digits {s : String} (oversized : Oversized s) :
    10 ≤ s.toList.countP isDigit := by
  have digits {word : List Char} {size : Nat} (stands : word.Sublist s.toList)
      (large : 10 ^ 9 ≤ size) (small : size < 10 ^ word.countP isDigit) :
      10 ≤ s.toList.countP isDigit := by
    have more := (Nat.pow_lt_pow_iff_right (a := 10) (by decide)).mp (large.trans_lt small)
    exact more.trans_le stands.countP_le
  cases oversized with
  | zone own known far =>
      obtain ⟨-, -, -, stands⟩ := fields?_sublist own.shape
      have near := zoneSeconds?_natAbs_le known
      refine digits stands (Nat.le_refl (10 ^ 9)) ?_
      rw [FarOffset] at far
      omega
  | number own near mem wide =>
      obtain ⟨shape, time, ⟨written, readYear, rfl⟩, readDay⟩ := own
      obtain ⟨dayStands, yearStands, timeStands, -⟩ := fields?_sublist shape
      rcases List.mem_cons.mp mem with rfl | mem
      · have full : 10 ^ 9 ≤ written.natAbs := by
          rw [fullYear] at wide
          split at wide
          · split at wide <;> omega
          · omega
        exact digits yearStands full (Text.natAbs_readInteger?_lt readYear)
      · rcases List.mem_cons.mp mem with rfl | mem
        · exact digits dayStands (by omega) (Text.natAbs_readInteger?_lt readDay)
        · exact digits timeStands (by omega) (time?_lt time _ mem)

/-- A blank text has no words, and so no numbers. -/
theorem not_oversized_of_blank {s : String} (blank : s.toList.all isBlank = true) :
    ¬ Oversized s := by
  have shapeless : fields? s = none := by
    rw [fields?, words, Text.blankWords_of_blank (List.all_eq_true.mp blank)]
    rfl
  rintro (⟨own, -, -⟩ | ⟨own, -, -, -⟩)
  · cases shapeless.symm.trans own.shape
  · cases shapeless.symm.trans own.shape

end Mail

/-! ## Values that are read as dates -/

/-- A text that is no moment in the international notation, and a header date with a number that
is too large. -/
def Value.WritesOversizedDate : Value → Prop
  | .text s => Iso.read? (String.ofList (normaliseZone s.toList)) = none ∧ Mail.Oversized s
  | _ => False

theorem isDateText_eq_error_iff (s : String) :
    isDateText s = .error .dateOutOfRange ↔ (Value.text s).WritesOversizedDate := by
  rw [isDateText, Value.WritesOversizedDate, ← Mail.read_outOfRange_iff]
  split
  next blank =>
    refine iff_of_false (by simp) ?_
    rintro ⟨-, oversized⟩
    exact Mail.not_oversized_of_blank blank ((Mail.read_outOfRange_iff s).mp oversized)
  · split
    next moment =>
      refine iff_of_false (by simp) ?_
      rintro ⟨unread, -⟩
      rw [unread] at moment
      cases moment
    next none =>
      have unread := Option.not_isSome_iff_eq_none.mp none
      split
      next found => simp [found]
      next refused => simp [refused]
      next oversized => exact iff_of_true rfl ⟨unread, oversized⟩

/-- Every value gets an answer when it is read as a date, unless it is a text that writes a date
with a number that is too large. Then reading it fails for this reason; such a text has at least
ten digits. -/
theorem Value.isDate_answers_iff (v : Value) :
    ((∃ b, v.isDate = .ok b) ↔ ¬ v.WritesOversizedDate) ∧
      (v.WritesOversizedDate → v.isDate = .error .dateOutOfRange ∧
        ∃ s, v = .text s ∧ 10 ≤ s.toList.countP isDigit) := by
  have fails : v.isDate = .error .dateOutOfRange ↔ v.WritesOversizedDate := by
    cases v with
    | text s => exact isDateText_eq_error_iff s
    | _ => exact iff_of_false nofun id
  refine ⟨?_, fun writes => ⟨fails.mpr writes, ?_⟩⟩
  · rw [← fails]
    cases outcome : v.isDate with
    | ok b => simp
    | error f => simp [Value.isDate_error outcome]
  · cases v with
    | text s => exact ⟨s, rfl, writes.2.ten_digits⟩
    | _ => cases writes

/-- A zone that is too far away, and a year that is too large. -/
theorem isDate_answers_iff_tooLarge :
    let far : Value := .text "1 Jan 2024 00:00:00 +99999999999999999999"
    let late : Value := .text "1 Jan 99999999999 00:00:00 +0000"
    far.WritesOversizedDate ∧ far.isDate = .error .dateOutOfRange ∧ (¬ ∃ b, far.isDate = .ok b) ∧
      late.WritesOversizedDate ∧ late.isDate = .error .dateOutOfRange := by
  intro far late
  have farWrites : far.WritesOversizedDate :=
    ⟨rfl, .zone ⟨rfl, rfl, ⟨_, rfl, rfl⟩, rfl⟩ rfl (.inr (by decide))⟩
  have lateWrites : late.WritesOversizedDate := by
    refine ⟨rfl, .number (n := 99999999999) ⟨rfl, rfl, ⟨_, rfl, rfl⟩, rfl⟩ ?_ ?_ (.inr (by decide))⟩
    · intro seconds known
      cases known
      decide
    · exact List.mem_cons_self
  obtain ⟨answers, fails⟩ := Value.isDate_answers_iff far
  exact ⟨farWrites, (fails farWrites).1, mt answers.mp (not_not_intro farWrites), lateWrites,
    ((Value.isDate_answers_iff late).2 lateWrites).1⟩

end DataContract
