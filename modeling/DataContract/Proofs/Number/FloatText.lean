/-
# The text of a number is read as the number

The text of a finite number has one of two forms. Nearly always it has a point, with
digits on both sides of it and possibly an exponent. A single digit that is too large or
too small to be written out has an exponent and no point. A text with a point is read as
the number that it was written for.
-/

import DataContract.Proofs.Number.Shortest
import Mathlib.Data.List.TakeWhile

set_option autoImplicit false

namespace DataContract.Binary64

open Text (IsDigits asciiNat isAsciiDigit isAsciiDigit_iff ne_of_isAsciiDigit)

/-! ### The forms of numerals -/

/-- An exponent as it is written, with at least two digits. -/
def exponentText (power : Int) : List Char :=
  let digits := (toString power.natAbs).toList
  'e' :: (if power < 0 then '-' else '+') ::
    (if digits.length < 2 then '0' :: digits else digits)

/-- A numeral with a point, which has digits on both sides of it and possibly an exponent. A zero
in front stands alone before the point. -/
structure PointNumeral where
  whole : List Char
  fraction : List Char
  power : Option Int
  whole_digits : IsDigits whole
  whole_ne_nil : whole ≠ []
  whole_leads : whole.head? = some '0' → whole = ['0']
  fraction_digits : IsDigits fraction
  fraction_ne_nil : fraction ≠ []

namespace PointNumeral

/-- What follows the fraction. -/
def suffix (p : PointNumeral) : List Char := p.power.elim [] exponentText

/-- A numeral as it is written. -/
def chars (p : PointNumeral) : List Char := p.whole ++ '.' :: (p.fraction ++ p.suffix)

/-- The digits on both sides of the point, as one number. -/
def digits (p : PointNumeral) : Nat := asciiNat (p.whole ++ p.fraction)

/-- The exponent of the last digit. -/
def place (p : PointNumeral) : Int := p.power.getD 0 - p.fraction.length

/-- The rational number that a numeral stands for. -/
def value (p : PointNumeral) : ℚ := p.digits * 10 ^ p.place

end PointNumeral

/-! ### Exponents -/

/-- The digits of a written exponent. -/
theorem exponentText_digits (power : Int) : ∃ digits : List Char, IsDigits digits ∧
    digits ≠ [] ∧ asciiNat digits = power.natAbs ∧
    exponentText power = 'e' :: (if power < 0 then '-' else '+') :: digits := by
  refine ⟨_, ?_, ?_, ?_, rfl⟩ <;> rw [Text.toList_toString]
  · intro c mem
    split at mem
    · rcases List.mem_cons.1 mem with rfl | mem
      · rfl
      · exact Text.isDigits_toDigits _ c mem
    · exact Text.isDigits_toDigits _ c mem
  · split
    · exact List.cons_ne_nil _ _
    · exact Nat.toDigits_ne_nil
  · split
    · rw [← List.singleton_append]
      exact (Text.asciiNat_zeros_append 1 _).trans (Text.asciiNat_toDigits _)
    · exact Text.asciiNat_toDigits _

theorem readExponent_exponentText (power : Int) :
    readExponent (exponentText power) = some power := by
  obtain ⟨digits, isDigits, nonempty, value, shape⟩ := exponentText_digits power
  have all : digits.all isAsciiDigit = true := List.all_eq_true.2 isDigits
  have present : digits.isEmpty = false := List.isEmpty_eq_false_iff.2 nonempty
  rw [shape]
  by_cases negative : power < 0
  · rw [if_pos negative, readExponent, readSign]
    simp only [all, present, value]
    simp [abs_of_neg negative]
  · rw [if_neg negative, readExponent, readSign]
    simp only [all, present, value]
    simp
    omega

/-! ### Signs -/

/-- The sign in front of a number. -/
def signText (negative : Bool) : List Char := if negative then ['-'] else []

theorem toList_toString_int (n : Int) :
    (toString n).toList = signText (decide (n < 0)) ++ Nat.toDigits 10 n.natAbs := by
  cases n with
  | ofNat n => exact Text.toList_toString n
  | negSucc n =>
      rw [decide_eq_true (Int.negSucc_lt_zero n)]
      show ("-" ++ toString (n + 1)).toList = _
      rw [String.toList_append, Text.toList_toString]
      rfl

/-- The sign in front of a digit is read as the sign. -/
theorem readSign_signText (negative : Bool) {c : Char} (digit : isAsciiDigit c = true)
    (rest : List Char) : readSign (signText negative ++ c :: rest) = (negative, c :: rest) := by
  cases negative with
  | true => rfl
  | false =>
      exact readSign.eq_3 _
        (fun _ shape => ne_of_isAsciiDigit digit (d := '-') (by decide) (List.cons.inj shape).1)
        (fun _ shape => ne_of_isAsciiDigit digit (d := '+') (by decide) (List.cons.inj shape).1)

/-! ### Reading numerals -/

theorem takeWhile_digits {cs rest : List Char} (digits : IsDigits cs)
    (stop : rest.takeWhile isAsciiDigit = []) : (cs ++ rest).takeWhile isAsciiDigit = cs := by
  rw [List.takeWhile_append_of_pos digits, stop, List.append_nil]

theorem dropWhile_digits {cs rest : List Char} (digits : IsDigits cs)
    (stop : rest.dropWhile isAsciiDigit = rest) :
    (cs ++ rest).dropWhile isAsciiDigit = rest := by
  rw [List.dropWhile_append_of_pos digits, stop]

theorem PointNumeral.readExponent_suffix (p : PointNumeral) :
    readExponent p.suffix = some (p.power.getD 0) := by
  rw [suffix]
  cases p.power with
  | none => rfl
  | some power => exact readExponent_exponentText power

/-- What follows the fraction does not begin with a digit. -/
theorem PointNumeral.suffix_stops (p : PointNumeral) :
    p.suffix.takeWhile isAsciiDigit = [] ∧ p.suffix.dropWhile isAsciiDigit = p.suffix := by
  rw [suffix]
  cases p.power with
  | none => exact ⟨rfl, rfl⟩
  | some power => exact ⟨rfl, rfl⟩

/-- What begins with a digit is none of the words for numbers that are not finite. -/
theorem ne_word {c : Char} (digit : isAsciiDigit c = true) {d : Char}
    (other : isAsciiDigit d = false) (rest more : List Char) : (c :: rest == d :: more) = false :=
  beq_false_of_ne fun same => ne_of_isAsciiDigit digit other (List.cons.inj same).1

/-- A numeral with a point is read as its decimal. -/
theorem PointNumeral.ofText?_chars (p : PointNumeral) (negative : Bool) :
    ofText? (String.ofList (signText negative ++ p.chars)) =
      some (ofDecimal negative p.digits p.place) := by
  obtain ⟨c, rest, shape⟩ := List.exists_cons_of_ne_nil p.whole_ne_nil
  have digit : isAsciiDigit c = true :=
    p.whole_digits c (shape ▸ List.mem_cons_self)
  have begins : p.chars = c :: (rest ++ '.' :: (p.fraction ++ p.suffix)) := by
    rw [chars, shape, List.cons_append]
  have signed : readSign (signText negative ++ p.chars) = (negative, p.chars) := by
    rw [begins]
    exact readSign_signText negative digit _
  have word (d : Char) (other : isAsciiDigit d = false) (more : List Char) :
      (p.chars == d :: more) = false := by
    rw [begins]
    exact ne_word digit other _ more
  obtain ⟨stop, keep⟩ := p.suffix_stops
  have front : p.chars.takeWhile isAsciiDigit = p.whole := takeWhile_digits p.whole_digits rfl
  have back : p.chars.dropWhile isAsciiDigit = '.' :: (p.fraction ++ p.suffix) :=
    dropWhile_digits p.whole_digits rfl
  have present : p.whole.isEmpty = false := List.isEmpty_eq_false_iff.2 p.whole_ne_nil
  rw [ofText?, String.toList_ofList, signed]
  simp only [word 'i' (by decide), word 'n' (by decide), front, back,
    takeWhile_digits p.fraction_digits stop, dropWhile_digits p.fraction_digits keep,
    p.readExponent_suffix, present]
  rfl

/-- A digit with an exponent is read as its decimal. -/
theorem ofText?_pointless (negative : Bool) {d : Char} (digit : isAsciiDigit d = true)
    (power : Int) :
    ofText? (String.ofList (signText negative ++ d :: exponentText power)) =
      some (ofDecimal negative (asciiNat [d]) power) := by
  have single : IsDigits [d] := fun c mem => List.mem_singleton.mp mem ▸ digit
  have read := readExponent_exponentText power
  obtain ⟨cs, shape⟩ : ∃ cs, exponentText power = 'e' :: cs := ⟨_, rfl⟩
  rw [shape] at read ⊢
  have front : (d :: 'e' :: cs).takeWhile isAsciiDigit = [d] := takeWhile_digits single rfl
  have back : (d :: 'e' :: cs).dropWhile isAsciiDigit = 'e' :: cs := dropWhile_digits single rfl
  rw [ofText?, String.toList_ofList, readSign_signText negative digit]
  simp only [ne_word digit (d := 'i') (by decide), ne_word digit (d := 'n') (by decide), front,
    back]
  show (readExponent ('e' :: cs)).map _ = _
  rw [read]
  exact congrArg some (congrArg (ofDecimal negative (asciiNat [d])) (Int.sub_zero power))

/-! ### Writing digits -/

/-- Only zeros at the end are dropped from a numeral, and the exponent makes up for
them. -/
theorem dropTrailingZeros_spec (cs : List Char) (k : Int) : ∃ kept count,
    dropTrailingZeros cs.reverse k = (kept, k + (count : Nat)) ∧
      cs = kept ++ List.replicate count '0' := by
  refine ⟨_, _, rfl, ?_⟩
  have zero (c : Char) (mem : c ∈ cs.reverse.takeWhile (· == '0')) : c = '0' := by
    simpa using List.mem_takeWhile_imp mem
  have zeros : cs.reverse.takeWhile (· == '0') =
      List.replicate (cs.reverse.takeWhile (· == '0')).length '0' :=
    List.eq_replicate_of_mem zero
  have split := List.takeWhile_append_dropWhile (p := (· == '0')) (l := cs.reverse)
  have rest : cs.reverse.drop (cs.reverse.takeWhile (· == '0')).length =
      cs.reverse.dropWhile (· == '0') := by
    conv_lhs => arg 2; rw [← split]
    exact List.drop_left
  show cs = (cs.reverse.drop _).reverse ++ _
  rw [rest, ← List.reverse_replicate, ← zeros, ← List.reverse_append, split, List.reverse_reverse]

section Forms

variable {digits : List Char} (isDigits : IsDigits digits) (nonempty : digits ≠ [])
  (leading : digits.head? ≠ some '0')

/-- Digits behind the point, after some zeros. -/
def behindZeros (zeros : Nat) : PointNumeral where
  whole := ['0']
  fraction := List.replicate zeros '0' ++ digits
  power := none
  whole_digits := Text.isDigits_zeros 1
  whole_ne_nil := List.cons_ne_nil _ _
  whole_leads _ := rfl
  fraction_digits := (Text.isDigits_zeros zeros).append isDigits
  fraction_ne_nil := List.append_ne_nil_of_right_ne_nil _ nonempty

theorem value_behindZeros (zeros : Nat) :
    (behindZeros isDigits nonempty zeros).value =
      asciiNat digits * 10 ^ (-(zeros + digits.length : Int)) := by
  have number : asciiNat (['0'] ++ (List.replicate zeros '0' ++ digits)) = asciiNat digits := by
    rw [← List.append_assoc, show ['0'] = List.replicate 1 '0' from rfl,
      ← List.replicate_add, Text.asciiNat_zeros_append]
  rw [PointNumeral.value, PointNumeral.digits, PointNumeral.place, behindZeros]
  simp only [number, Option.getD_none, List.length_append, List.length_replicate, Nat.cast_add,
    zero_sub]

/-- Digits before the point, with some zeros after them. -/
def beforeZeros (zeros : Nat) : PointNumeral where
  whole := digits ++ List.replicate zeros '0'
  fraction := ['0']
  power := none
  whole_digits := isDigits.append (Text.isDigits_zeros zeros)
  whole_ne_nil := List.append_ne_nil_of_left_ne_nil nonempty _
  whole_leads zero := absurd (List.head?_append_of_ne_nil _ nonempty ▸ zero) leading
  fraction_digits := Text.isDigits_zeros 1
  fraction_ne_nil := List.cons_ne_nil _ _

theorem value_beforeZeros (zeros : Nat) :
    (beforeZeros isDigits nonempty leading zeros).value = asciiNat digits * 10 ^ (zeros : Int) := by
  have number : asciiNat (digits ++ List.replicate zeros '0' ++ ['0']) =
      asciiNat digits * 10 ^ (zeros + 1) := by
    rw [List.append_assoc, show ['0'] = List.replicate 1 '0' from rfl,
      ← List.replicate_add, Text.asciiNat_append_zeros]
  rw [PointNumeral.value, PointNumeral.digits, PointNumeral.place, beforeZeros]
  simp only [number]
  push_cast
  rw [zpow_natCast, pow_succ]
  norm_num
  ring

/-- Digits on both sides of the point, possibly with an exponent. -/
def onBothSides (count : Nat) (before : 0 < count) (behind : count < digits.length)
    (power : Option Int) : PointNumeral where
  whole := digits.take count
  fraction := digits.drop count
  power := power
  whole_digits := fun c mem => isDigits c (List.mem_of_mem_take mem)
  whole_ne_nil := by
    rw [Ne, List.take_eq_nil_iff, not_or]
    exact ⟨before.ne', List.ne_nil_of_length_pos (by omega)⟩
  whole_leads zero := by
    rw [List.head?_take, if_neg before.ne'] at zero
    exact absurd zero leading
  fraction_digits := fun c mem => isDigits c (List.mem_of_mem_drop mem)
  fraction_ne_nil := by
    rw [Ne, List.drop_eq_nil_iff]
    omega

theorem value_onBothSides (count : Nat) (before : 0 < count) (behind : count < digits.length)
    (power : Option Int) :
    (onBothSides isDigits leading count before behind power).value =
      asciiNat digits * 10 ^ (power.getD 0 - (digits.length - count : Nat)) := by
  rw [PointNumeral.value, PointNumeral.digits, PointNumeral.place, onBothSides]
  simp only [List.take_append_drop, List.length_drop]

include isDigits leading

/-- Written out, digits stand for their number. -/
theorem positional_spec (nonempty : digits ≠ []) (k : Int) : ∃ p : PointNumeral,
    positional digits (k + digits.length - 1) = p.chars ∧ p.value = asciiNat digits * 10 ^ k := by
  have length : 0 < digits.length := List.length_pos_of_ne_nil nonempty
  generalize lead : k + digits.length - 1 = first
  rw [positional]
  by_cases small : first < 0
  · refine ⟨behindZeros isDigits nonempty (-first - 1).toNat, ?_, ?_⟩
    · rw [if_pos small]
      simp [behindZeros, PointNumeral.chars, PointNumeral.suffix]
    · rw [value_behindZeros]
      congr 2
      omega
  · rw [if_neg small]
    dsimp only
    by_cases short : digits.length ≤ first.toNat + 1
    · refine ⟨beforeZeros isDigits nonempty leading (first.toNat + 1 - digits.length), ?_, ?_⟩
      · rw [if_pos short]
        simp [beforeZeros, PointNumeral.chars, PointNumeral.suffix]
      · rw [value_beforeZeros]
        congr 2
        omega
    · refine ⟨onBothSides isDigits leading (first.toNat + 1) (by omega) (by omega) none, ?_, ?_⟩
      · rw [if_neg short]
        simp [onBothSides, PointNumeral.chars, PointNumeral.suffix]
      · rw [value_onBothSides, Option.getD_none]
        congr 2
        omega

/-- With an exponent, two or more digits stand for their number. -/
theorem scientific_spec (more : 1 < digits.length) (k : Int) : ∃ p : PointNumeral,
    scientific digits (k + digits.length - 1) = p.chars ∧ p.value = asciiNat digits * 10 ^ k := by
  generalize lead : k + digits.length - 1 = first
  refine ⟨onBothSides isDigits leading 1 (by decide) more (some first), ?_, ?_⟩
  · rw [scientific, if_neg (by omega)]
    simp [onBothSides, PointNumeral.chars, PointNumeral.suffix, exponentText]
  · rw [value_onBothSides, Option.getD_some]
    congr 2
    omega

end Forms

/-! ### The text of a number -/

/-- The digits that a positive number is written with, and the exponent of the last one. -/
structure WrittenDigits (m : Nat) (e : Int) (digits : List Char) (k : Int) : Prop where
  isDigits : IsDigits digits
  nonempty : digits ≠ []
  leading : digits.head? ≠ some '0'
  near : Normal m e → Near m e (asciiNat digits * 10 ^ k)
  text : ∀ negative, (text (.finite negative m e)).toList = signText negative ++
    if -4 ≤ k + digits.length - 1 ∧ k + digits.length - 1 < 16
    then positional digits (k + digits.length - 1) else scientific digits (k + digits.length - 1)

/-- They are those of the shortest decimal, without the zeros at the end. -/
theorem exists_writtenDigits {m : Nat} (nonzero : 0 < m) (e : Int) :
    ∃ digits k, WrittenDigits m e digits k := by
  have positive := shortest_pos nonzero e
  obtain ⟨kept, count, dropped, digits⟩ :=
    dropTrailingZeros_spec (Nat.toDigits 10 (shortest m e).1) (shortest m e).2
  have number : (shortest m e).1 = asciiNat kept * 10 ^ count := by
    rw [← Text.asciiNat_append_zeros, ← digits, Text.asciiNat_toDigits]
  refine ⟨kept, (shortest m e).2 + (count : Nat), ?_, ?_, ?_, ?_, ?_⟩
  · exact fun c mem =>
      Text.isDigits_toDigits (shortest m e).1 c (digits ▸ List.mem_append_left _ mem)
  · rintro rfl
    rw [number] at positive
    exact absurd positive (by simp [asciiNat])
  · intro zero
    obtain ⟨rest, rfl⟩ := List.head?_eq_some_iff.mp zero
    exact Text.head_toDigits_ne_zero positive digits rfl
  · have value : (asciiNat kept * 10 ^ ((shortest m e).2 + (count : Int)) : ℚ) =
        (shortest m e).1 * 10 ^ (shortest m e).2 := by
      rw [number, Nat.cast_mul, Nat.cast_pow, Nat.cast_ofNat, zpow_add₀ (by norm_num), zpow_natCast]
      ring
    rw [value]
    exact near_shortest
  · intro negative
    have unfolded : (Binary64.text (.finite negative m e)).toList =
        signText negative ++
          (let kept := dropTrailingZeros (toString (shortest m e).1).toList.reverse (shortest m e).2
          let lead : Int := kept.2 + kept.1.length - 1
          if -4 ≤ lead ∧ lead < 16 then positional kept.1 lead else scientific kept.1 lead) := by
      rw [Binary64.text, if_neg nonzero.ne', String.toList_ofList]
      rfl
    rw [unfolded, Text.toList_toString, dropped]

/-- The numeral of zero. -/
def zeroNumeral : PointNumeral where
  whole := ['0']
  fraction := ['0']
  power := none
  whole_digits := Text.isDigits_zeros 1
  whole_ne_nil := by decide
  whole_leads _ := rfl
  fraction_digits := Text.isDigits_zeros 1
  fraction_ne_nil := by decide

/-- The two forms of the text of a number, with the digits and the exponent that it writes. -/
inductive Writes : List Char → Nat → Int → Prop
  | point (p : PointNumeral) : Writes p.chars p.digits p.place
  | pointless {d : Char} {power : Int} : isAsciiDigit d = true → d ≠ '0' →
      Writes (d :: exponentText power) (asciiNat [d]) power

theorem Writes.ofText?_signed {cs : List Char} {digits : Nat} {place : Int}
    (writes : Writes cs digits place) (negative : Bool) :
    ofText? (String.ofList (signText negative ++ cs)) = some (ofDecimal negative digits place) := by
  cases writes with
  | point p => exact p.ofText?_chars negative
  | pointless digit _ => exact ofText?_pointless negative digit _

/-- What a positive number is written as has one of the two forms, and is near the number. -/
theorem exists_writes_of_writtenDigits {m : Nat} {e : Int} {digits : List Char} {k : Int}
    (written : WrittenDigits m e digits k) : ∃ cs number place, Writes cs number place ∧
      (∀ negative, (text (.finite negative m e)).toList = signText negative ++ cs) ∧
      (number * 10 ^ place : ℚ) = asciiNat digits * 10 ^ k := by
  have length := List.length_pos_of_ne_nil written.nonempty
  by_cases small : -4 ≤ k + digits.length - 1 ∧ k + digits.length - 1 < 16
  · obtain ⟨p, shape, same⟩ :=
      positional_spec written.isDigits written.leading written.nonempty k
    refine ⟨p.chars, p.digits, p.place, .point p, fun negative => ?_, same⟩
    rw [written.text, if_pos small, shape]
  · by_cases more : 1 < digits.length
    · obtain ⟨p, shape, same⟩ := scientific_spec written.isDigits written.leading more k
      refine ⟨p.chars, p.digits, p.place, .point p, fun negative => ?_, same⟩
      rw [written.text, if_neg small, shape]
    · obtain ⟨d, rfl⟩ := List.length_eq_one_iff.1 (show digits.length = 1 by omega)
      have nonzero : d ≠ '0' := fun zero => written.leading (congrArg some zero)
      refine ⟨d :: exponentText k, asciiNat [d], k,
        .pointless (written.isDigits d List.mem_cons_self) nonzero, fun negative => ?_, rfl⟩
      rw [written.text, if_neg small, List.length_singleton, Nat.cast_one, Int.add_sub_cancel]
      rfl

/-- The text of a finite number: its sign and one of the two forms. If the number is normal, the
decimal is read as the number. -/
theorem exists_writes (m : Nat) (e : Int) : ∃ cs number place, Writes cs number place ∧
    (∀ negative, (text (.finite negative m e)).toList = signText negative ++ cs) ∧
    ∀ negative, IsNormal (.finite negative m e) →
      ofDecimal negative number place = .finite negative m e := by
  rcases Nat.eq_zero_or_pos m with rfl | nonzero
  · refine ⟨zeroNumeral.chars, zeroNumeral.digits, zeroNumeral.place, .point _, ?_, ?_⟩
    · intro negative
      rw [text, if_pos rfl, String.toList_ofList]
      rfl
    · intro negative normal
      rcases normal with ⟨-, rfl⟩ | normal
      · cases negative <;> rfl
      · exact absurd normal.positive (Nat.lt_irrefl 0)
  · obtain ⟨digits, k, written⟩ := exists_writtenDigits nonzero e
    obtain ⟨cs, number, place, writes, shape, same⟩ := exists_writes_of_writtenDigits written
    refine ⟨cs, number, place, writes, shape, fun negative normal => ?_⟩
    rcases normal with ⟨rfl, -⟩ | normal
    · exact absurd nonzero (Nat.lt_irrefl 0)
    · exact ofDecimal_of_near normal (same ▸ written.near normal) negative

/-- The text of a finite number: a numeral with a point that is read as the number apart
from its sign, or one digit and an exponent. -/
theorem text_of_isNormal {negative : Bool} {m : Nat} {e : Int}
    (normal : IsNormal (.finite negative m e)) :
    (∃ p : PointNumeral, (text (.finite negative m e)).toList = signText negative ++ p.chars ∧
      ofDecimal false p.digits p.place = .finite false m e) ∨
    ∃ d power, isAsciiDigit d = true ∧ d ≠ '0' ∧
      (text (.finite negative m e)).toList = signText negative ++ d :: exponentText power := by
  obtain ⟨cs, number, place, writes, shape, read⟩ := exists_writes m e
  cases writes with
  | point p => exact .inl ⟨p, shape negative, read false normal⟩
  | pointless digit nonzero => exact .inr ⟨_, _, digit, nonzero, shape negative⟩

/-- The text of a normal number is read as the number. -/
theorem ofText?_text {negative : Bool} {m : Nat} {e : Int}
    (normal : IsNormal (.finite negative m e)) :
    ofText? (text (.finite negative m e)) = some (.finite negative m e) := by
  obtain ⟨cs, number, place, writes, shape, read⟩ := exists_writes m e
  rw [← String.ofList_toList (s := text _), shape, writes.ofText?_signed, read negative normal]

end DataContract.Binary64
