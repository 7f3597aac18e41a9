/-
# Plain scalars that are written for numbers and words

The text of an integer is known as an integer by its form and stands for it, unless it
has too many digits. The text of a floating-point number is known as a number with a
fraction only if it has a point: an exponent alone does not make a number, so a text
such as `1e+16` stands for itself.
-/

import DataContract.Json
import DataContract.Proofs.Number.FloatText
import DataContract.Yaml.Scalar

set_option autoImplicit false

namespace DataContract.Yaml

open Binary64 (PointNumeral exponentText exponentText_digits signText toList_toString_int IsNormal
  readSign)
open Text (IsDigits isAsciiDigit asciiNat ne_of_isAsciiDigit isAsciiDigit_iff)

/-! ### Texts that begin like a number -/

/-- Whether a text begins with a sign or a digit. -/
def beginsNumber (cs : List Char) : Bool := cs.head?.any fun c => isAsciiDigit c || c == '-'

theorem beginsNumber_signed (negative : Bool) {c : Char} (digit : isAsciiDigit c = true)
    (rest : List Char) : beginsNumber (signText negative ++ c :: rest) = true := by
  cases negative
  · exact Bool.or_eq_true_iff.2 (.inl digit)
  · rfl

/-- A word that does not begin like a number is none of the texts that do. -/
theorem ne_of_beginsNumber {s word : String} (begins : beginsNumber s.toList = true)
    (other : beginsNumber word.toList = false) : s ≠ word := by
  rintro rfl
  rw [begins] at other
  cases other

/-- What begins like a number is no word: only its form decides. -/
theorem ofPlain_of_beginsNumber {s : String} (begins : beginsNumber s.toList = true) :
    Tag.ofPlain s =
      if Tag.isFloat s.toList then .float
      else if Tag.isInteger s.toList then .integer
      else if Timestamp.isPlain s.toList then .timestamp
      else .text := by
  have notBoolean : (Tag.booleanWords.lookup s).isSome = false := by
    rw [Option.isSome_eq_false_iff, Option.isNone_iff_eq_none, List.lookup_eq_none_iff]
    intro word mem
    have other : ∀ w ∈ Tag.booleanWords, beginsNumber w.1.toList = false := by decide
    exact bne_iff_ne.2 (ne_of_beginsNumber begins (other word mem))
  have notNull : Tag.nullWords.contains s = false := by
    rw [List.contains_eq_any_beq, List.any_eq_false]
    intro word mem
    have other : ∀ w ∈ Tag.nullWords, beginsNumber w.toList = false := by decide
    rw [beq_iff_eq]
    exact ne_of_beginsNumber begins (other word mem)
  have notMerge : (s == "<<") = false := beq_false_of_ne (ne_of_beginsNumber begins (by decide))
  have notDefault : (s == "=") = false := beq_false_of_ne (ne_of_beginsNumber begins (by decide))
  simp only [Tag.ofPlain, notBoolean, notNull, notMerge, notDefault, Bool.false_eq_true, if_false]

theorem dropSign_signed (negative : Bool) {c : Char} (digit : isAsciiDigit c = true)
    (rest : List Char) : Tag.dropSign (signText negative ++ c :: rest) = c :: rest := by
  cases negative
  · have plus : c ≠ '+' := ne_of_isAsciiDigit digit (by decide)
    have minus : c ≠ '-' := ne_of_isAsciiDigit digit (by decide)
    show Tag.dropSign (c :: rest) = c :: rest
    exact Tag.dropSign.eq_3 _ (fun _ shape => plus (List.cons.inj shape).1)
      (fun _ shape => minus (List.cons.inj shape).1)
  · rfl

/-- The sign and the digits of a numeral without low lines. -/
theorem unsigned_signed (negative : Bool) {c : Char} (digit : isAsciiDigit c = true)
    {rest : List Char} (plain : '_' ∉ rest) :
    unsigned (signText negative ++ c :: rest) = (negative, c :: rest) := by
  have low : c ≠ '_' := ne_of_isAsciiDigit digit (by decide)
  have kept : (c :: rest).filter (· != '_') = c :: rest :=
    List.filter_eq_self.2 fun d mem => by
      rcases List.mem_cons.1 mem with rfl | mem
      · exact bne_iff_ne.2 low
      · exact bne_iff_ne.2 fun same => plain (same ▸ mem)
  have sign : (signText negative).filter (· != '_') = signText negative := by
    cases negative <;> rfl
  rw [unsigned, List.filter_append, kept, sign]
  exact Binary64.readSign_signText negative digit rest

/-! ### The characters of plain scalars -/

/-- The characters that numbers and words are written with. -/
def isScalarChar (c : Char) : Bool :=
  isAsciiDigit c || ('a' ≤ c && c ≤ 'z') || c == '+' || c == '-' || c == '.'

/-- Whether a text is written with such characters only. -/
def IsScalarText (cs : List Char) : Prop := ∀ c ∈ cs, isScalarChar c = true

theorem isScalarChar_of_digit {c : Char} (digit : isAsciiDigit c = true) :
    isScalarChar c = true := by
  simp [isScalarChar, digit]

theorem ne_of_isScalarChar {c d : Char} (scalar : isScalarChar c = true)
    (other : isScalarChar d = false) : c ≠ d := by
  rintro rfl
  rw [scalar] at other
  cases other

theorem IsScalarText.append {front back : List Char} (hf : IsScalarText front)
    (hb : IsScalarText back) : IsScalarText (front ++ back) :=
  fun c mem => (List.mem_append.1 mem).elim (hf c) (hb c)

theorem isScalarText_digits {cs : List Char} (digits : IsDigits cs) : IsScalarText cs :=
  fun c mem => isScalarChar_of_digit (digits c mem)

theorem isScalarText_cons {c : Char} {cs : List Char} (scalar : isScalarChar c = true)
    (rest : IsScalarText cs) : IsScalarText (c :: cs) := fun d mem => by
  rcases List.mem_cons.1 mem with rfl | mem
  · exact scalar
  · exact rest d mem

theorem isScalarText_signText (negative : Bool) : IsScalarText (signText negative) := by
  cases negative
  · exact fun c mem => absurd mem List.not_mem_nil
  · exact isScalarText_cons (by decide) fun c mem => absurd mem List.not_mem_nil

theorem isScalarText_exponentText (power : Int) : IsScalarText (exponentText power) := by
  obtain ⟨digits, isDigits, -, -, shape⟩ := exponentText_digits power
  rw [shape]
  apply isScalarText_cons (by decide)
  apply isScalarText_cons _ (isScalarText_digits isDigits)
  split <;> decide

theorem isScalarText_chars (p : PointNumeral) : IsScalarText p.chars := by
  have suffix : IsScalarText p.suffix := by
    rw [PointNumeral.suffix]
    cases p.power with
    | none => exact fun c mem => absurd mem List.not_mem_nil
    | some power => exact isScalarText_exponentText power
  apply (isScalarText_digits p.whole_digits).append
  apply isScalarText_cons (by decide)
  exact (isScalarText_digits p.fraction_digits).append suffix

/-- Such a text has no capitals, so it is the same in lower case. -/
theorem toLower_of_isScalarText {s : String} (scalar : IsScalarText s.toList) :
    s.toLower = s := by
  have lower (c : Char) (mem : c ∈ s.toList) : c.toLower = c := by
    show (if h : _ then _ else c) = c
    rw [dif_neg]
    rintro ⟨low, high⟩
    have range : 65 ≤ c.toNat ∧ c.toNat ≤ 90 := ⟨low, high⟩
    have char := scalar c mem
    simp only [isScalarChar, Bool.or_eq_true, Bool.and_eq_true, decide_eq_true_iff, beq_iff_eq,
      isAsciiDigit_iff] at char
    rcases char with (((digit | ⟨letter, -⟩) | rfl) | rfl) | rfl
    · omega
    · have : 97 ≤ c.toNat := letter
      omega
    · exact absurd range (by decide)
    · exact absurd range (by decide)
    · exact absurd range (by decide)
  show s.map Char.toLower = s
  rw [← String.toList_inj, String.toList_map, List.map_congr_left lower, List.map_id']

/-! ### Integers -/

/-- The digits of an integer are not empty. -/
theorem digits_int (n : Int) : ∃ c rest, Nat.toDigits 10 n.natAbs = c :: rest ∧
    isAsciiDigit c = true ∧ IsDigits rest := by
  obtain ⟨c, rest, shape⟩ :=
    List.exists_cons_of_ne_nil (Nat.toDigits_ne_nil (n := n.natAbs) (b := 10))
  have digits := Text.isDigits_toDigits n.natAbs
  rw [shape] at digits
  exact ⟨c, rest, shape, digits c List.mem_cons_self,
    fun d mem => digits d (List.mem_cons_of_mem _ mem)⟩

theorem not_mem_of_isDigits {cs : List Char} (digits : IsDigits cs) {c : Char}
    (other : isAsciiDigit c = false) : c ∉ cs := fun mem => by
  rw [digits c mem] at other
  cases other

theorem isFloat_of_no_point {cs : List Char} (none : '.' ∉ Tag.dropSign cs) :
    Tag.isFloat cs = false := by
  have all : (Tag.dropSign cs).dropWhile (· != '.') = [] :=
    List.dropWhile_eq_nil_iff.2 fun c mem => bne_iff_ne.2 fun same => none (same ▸ mem)
  rw [Tag.isFloat]
  simp only [all]

/-- What begins with another digit than zero is decimal, or of base sixty. -/
theorem isInteger_of_nonzero {cs : List Char} {c : Char} {rest : List Char}
    (shape : Tag.dropSign cs = c :: rest) (nonzero : c ≠ '0') :
    Tag.isInteger cs = (Tag.isLooseNumeral (c :: rest) || Tag.isSexagesimal (c :: rest)) := by
  rw [Tag.isInteger, shape]
  split
  all_goals first
    | rfl
    | (rename_i same; exact absurd (List.cons.inj same).1 nonzero)

theorem isLooseNumeral_of_isDigits {c : Char} {rest : List Char} (digit : isAsciiDigit c = true)
    (digits : IsDigits rest) : Tag.isLooseNumeral (c :: rest) = true := by
  rw [Tag.isLooseNumeral, digit, Bool.true_and, List.all_eq_true]
  intro d mem
  rw [Tag.isLooseDigit, digits d mem, Bool.true_or]

theorem ofPlain_int (n : Int) : Tag.ofPlain (toString n) = .integer := by
  obtain ⟨c, rest, shape, digit, digits⟩ := digits_int n
  have chars := toList_toString_int n
  rw [shape] at chars
  have unsigned := dropSign_signed (decide (n < 0)) digit rest
  have begins : beginsNumber (toString n).toList = true := chars ▸ beginsNumber_signed _ digit rest
  have noPoint : '.' ∉ Tag.dropSign (toString n).toList := by
    rw [chars, unsigned, ← shape]
    exact not_mem_of_isDigits (Text.isDigits_toDigits _) (by decide)
  have integer : Tag.isInteger (toString n).toList = true := by
    by_cases zero : n = 0
    · rw [zero]
      decide
    · have nonzero : c ≠ '0' := Text.head_toDigits_ne_zero (Int.natAbs_pos.2 zero) shape
      rw [isInteger_of_nonzero (chars ▸ unsigned) nonzero,
        isLooseNumeral_of_isDigits digit digits, Bool.true_or]
  rw [ofPlain_of_beginsNumber begins, isFloat_of_no_point noPoint, integer]
  rfl

/-- A numeral that begins with another digit than zero is read in base ten. -/
theorem integerValue_of_nonzero {s : String} {negative : Bool} {c : Char} {rest : List Char}
    (shape : unsigned s.toList = (negative, c :: rest)) (nonzero : c ≠ '0')
    (plain : ':' ∉ c :: rest) :
    integerValue s = signed negative <$> decimalInteger (c :: rest) := by
  have decimal : (c :: rest).contains ':' = false := by
    rw [← Bool.not_eq_true, List.contains_iff_mem]
    exact plain
  rw [integerValue, shape]
  dsimp only
  congr 1
  split
  all_goals first
    | (rename_i same; exact absurd (List.cons.inj same).1 nonzero)
    | skip
  · rename_i same
    cases same
  · rw [decimal]
    rfl

/-- Digits are read as the number that they write, unless there are too many. -/
theorem decimalInteger_of_isDigits {cs : List Char} (digits : IsDigits cs) (nonempty : cs ≠ []) :
    decimalInteger cs =
      if Text.greatestDigitCount < cs.length then .error (tooManyDigits cs.length)
      else .ok (asciiNat cs : Int) := by
  have run : Tag.isRun isAsciiDigit cs = true := by
    rw [Tag.isRun, List.all_eq_true.2 digits, List.isEmpty_eq_false_iff.2 nonempty]
    rfl
  rw [decimalInteger, Text.readInteger?_of_isDigits digits nonempty]
  by_cases long : Text.greatestDigitCount < cs.length
  · simp only [if_pos long, run, if_true]
  · simp only [if_neg long]

/-- The text of an integer is read as the integer, unless it has too many digits. -/
theorem integerValue_toString (n : Int) :
    integerValue (toString n) =
      if Text.greatestDigitCount < (Nat.toDigits 10 n.natAbs).length then
        .error (tooManyDigits (Nat.toDigits 10 n.natAbs).length)
      else .ok n := by
  by_cases zero : n = 0
  · rw [zero]
    rfl
  · obtain ⟨c, rest, shape, digit, digits⟩ := digits_int n
    have all : IsDigits (c :: rest) := shape ▸ Text.isDigits_toDigits n.natAbs
    have unsigned : unsigned (toString n).toList = (decide (n < 0), c :: rest) := by
      rw [toList_toString_int, shape]
      exact unsigned_signed _ digit (not_mem_of_isDigits digits (by decide))
    have value : (asciiNat (c :: rest) : Int) = n.natAbs := by rw [← shape, Text.asciiNat_toDigits]
    rw [integerValue_of_nonzero unsigned (Text.head_toDigits_ne_zero (Int.natAbs_pos.2 zero) shape)
      (not_mem_of_isDigits all (by decide)), decimalInteger_of_isDigits all (List.cons_ne_nil _ _),
      value, shape]
    split
    · rfl
    · show Except.ok (signed (decide (n < 0)) n.natAbs) = .ok n
      rw [signed]
      congr 1
      split
      · rename_i negative
        have := of_decide_eq_true negative
        omega
      · rename_i natural
        have := of_decide_eq_false (Bool.not_eq_true _ ▸ natural)
        omega

/-! ### Numbers with a point -/

theorem head_digit (p : PointNumeral) : ∃ c rest, p.whole = c :: rest ∧
    isAsciiDigit c = true := by
  obtain ⟨c, rest, shape⟩ := List.exists_cons_of_ne_nil p.whole_ne_nil
  exact ⟨c, rest, shape, p.whole_digits c (shape ▸ List.mem_cons_self)⟩

theorem isExponent_exponentText (power : Int) : Tag.isExponent (exponentText power) = true := by
  obtain ⟨digits, isDigits, nonempty, -, shape⟩ := exponentText_digits power
  have run : Tag.isRun isAsciiDigit digits = true := by
    rw [Tag.isRun, List.all_eq_true.2 isDigits, List.isEmpty_eq_false_iff.2 nonempty]
    rfl
  rw [shape, Tag.isExponent, run]
  split <;> rfl

/-- A numeral with a point is known as a number with a fraction. -/
theorem isFloat_pointed (negative : Bool) (p : PointNumeral) :
    Tag.isFloat (signText negative ++ p.chars) = true := by
  obtain ⟨c, rest, shape, digit⟩ := head_digit p
  have unsigned : Tag.dropSign (signText negative ++ p.chars) = p.chars := by
    rw [PointNumeral.chars, shape]
    exact dropSign_signed negative digit _
  have before (d : Char) (mem : d ∈ p.whole) : (d != '.') = true :=
    bne_iff_ne.2 (ne_of_isAsciiDigit (p.whole_digits d mem) (by decide))
  have whole : p.chars.takeWhile (· != '.') = p.whole := by
    rw [PointNumeral.chars, List.takeWhile_append_of_pos before]
    exact List.append_nil _
  have fraction : p.chars.dropWhile (· != '.') = '.' :: (p.fraction ++ p.suffix) := by
    rw [PointNumeral.chars, List.dropWhile_append_of_pos before]
    rfl
  have loose (d : Char) (mem : d ∈ p.fraction) : Tag.isLooseDigit d = true := by
    rw [Tag.isLooseDigit, p.fraction_digits d mem, Bool.true_or]
  have exponent : Tag.isFraction (p.fraction ++ p.suffix) = true := by
    rw [Tag.isFraction, List.dropWhile_append_of_pos loose, PointNumeral.suffix]
    cases p.power with
    | none => rfl
    | some power => exact isExponent_exponentText power
  have numeral : Tag.isLooseNumeral p.whole = true := by
    rw [shape]
    exact isLooseNumeral_of_isDigits digit fun d mem =>
      p.whole_digits d (shape ▸ List.mem_cons_of_mem _ mem)
  have present : p.whole.isEmpty = false := List.isEmpty_eq_false_iff.2 p.whole_ne_nil
  rw [Tag.isFloat, unsigned]
  simp only [whole, fraction, present, numeral, exponent]
  rfl

theorem decimalFloat_chars (p : PointNumeral) :
    decimalFloat p.chars = .ok (Binary64.ofDecimal false p.digits p.place) := by
  have read := p.ofText?_chars false
  rw [show signText false ++ p.chars = p.chars from rfl] at read
  rw [decimalFloat, read]

/-- The value of a numeral with a point is that of its decimal. -/
theorem floatValue_pointed {s : String} {negative : Bool} {p : PointNumeral}
    (shape : s.toList = signText negative ++ p.chars) :
    floatValue s = .ok
      (if negative then (Binary64.ofDecimal false p.digits p.place).negate
        else Binary64.ofDecimal false p.digits p.place) := by
  obtain ⟨c, rest, whole, digit⟩ := head_digit p
  have scalar : IsScalarText s.toList :=
    shape ▸ (isScalarText_signText negative).append (isScalarText_chars p)
  have head : p.chars = c :: (rest ++ '.' :: (p.fraction ++ p.suffix)) := by
    rw [PointNumeral.chars, whole, List.cons_append]
  have absent {d : Char} (other : isScalarChar d = false) : d ∉ p.chars := fun mem =>
    ne_of_isScalarChar (isScalarText_chars p d mem) other rfl
  have unsigned : unsigned s.toLower.toList = (negative, p.chars) := by
    rw [toLower_of_isScalarText scalar, shape, head]
    exact unsigned_signed negative digit fun mem =>
      absent (by decide) (head ▸ List.mem_cons_of_mem c mem)
  have someDigit : s.toList.all (· == '_') = false := by
    rw [List.all_eq_false]
    refine ⟨c, ?_, ?_⟩
    · rw [shape, head]
      exact List.mem_append_right _ List.mem_cons_self
    · rw [beq_iff_eq]
      exact ne_of_isAsciiDigit digit (by decide)
  have noColon : p.chars.contains ':' = false := by
    rw [← Bool.not_eq_true, List.contains_iff_mem]
    exact absent (by decide)
  have point : c ≠ '.' := ne_of_isAsciiDigit digit (by decide)
  have read := decimalFloat_chars p
  rw [floatValue, unsigned]
  rw [head] at noColon read ⊢
  simp only [someDigit, Bool.false_eq_true, if_false]
  split
  · rename_i same
    exact absurd (List.cons.inj same).1 point
  · rename_i same
    exact absurd (List.cons.inj same).1 point
  · rw [noColon, read]
    rfl

/-! ### Numbers without a point -/

/-- A text that does not begin with four digits is no day and no moment. -/
theorem not_isPlain_of_few_digits {cs : List Char}
    (few : ((cs.take 4).takeWhile isAsciiDigit).length < 4) : Timestamp.isPlain cs = false := by
  have noDay (least : Nat) : Timestamp.readDay least cs = none := by
    rw [Timestamp.readDay, Timestamp.readDigits, if_pos few]
    rfl
  rw [Timestamp.isPlain, noDay, Timestamp.readMoment, noDay]
  rfl

/-- There is no other mark than the sign and the `e` in a digit with an exponent. -/
theorem not_mem_pointless {d : Char} (digit : isAsciiDigit d = true) (power : Int) {c : Char}
    (other : isAsciiDigit c = false) (mark : c ∉ ['+', '-', 'e']) :
    c ∉ d :: exponentText power := by
  obtain ⟨digits, isDigits, -, -, exponent⟩ := exponentText_digits power
  rw [exponent, List.mem_cons, List.mem_cons, List.mem_cons]
  rintro (rfl | rfl | same | mem)
  · rw [digit] at other
    cases other
  · exact mark (by decide)
  · apply mark
    rw [same]
    split <;> decide
  · exact not_mem_of_isDigits isDigits other mem

/-- A digit with an exponent and no point is no number: it stands for itself. -/
theorem ofPlain_pointless {s : String} {negative : Bool} {d : Char} {power : Int}
    (digit : isAsciiDigit d = true) (nonzero : d ≠ '0')
    (shape : s.toList = signText negative ++ d :: exponentText power) :
    Tag.ofPlain s = .text := by
  obtain ⟨digits, -, -, -, exponent⟩ := exponentText_digits power
  have unsigned : Tag.dropSign s.toList = d :: exponentText power :=
    shape ▸ dropSign_signed negative digit _
  have notFloat : Tag.isFloat s.toList = false :=
    isFloat_of_no_point (unsigned ▸ not_mem_pointless digit power (by decide) (by decide))
  have notLoose : Tag.isLooseNumeral (d :: exponentText power) = false := by
    rw [Tag.isLooseNumeral, exponent, List.all_cons,
      show Tag.isLooseDigit 'e' = false by decide, Bool.false_and, Bool.and_false]
  have notSexagesimal : Tag.isSexagesimal (d :: exponentText power) = false := by
    rw [Tag.isSexagesimal, Tag.colonParts,
      List.splitOn_eq_singleton (not_mem_pointless digit power (by decide) (by decide))]
  have notInteger : Tag.isInteger s.toList = false := by
    rw [isInteger_of_nonzero unsigned nonzero, notLoose, notSexagesimal]
    rfl
  have notTimestamp : Timestamp.isPlain s.toList = false := by
    apply not_isPlain_of_few_digits
    rw [shape, exponent]
    cases negative
    · show ((d :: _).takeWhile isAsciiDigit).length < 4
      rw [List.takeWhile_cons_of_pos digit]
      exact (by decide : 1 < 4)
    · exact (by decide : 0 < 4)
  rw [ofPlain_of_beginsNumber (shape ▸ beginsNumber_signed negative digit _), notFloat,
    notInteger, notTimestamp]
  rfl

/-- What a reader makes of the text of a number: the number if the text has a point, the
text itself if it has none. -/
theorem scalarValue_float {x : Binary64} (normal : IsNormal x) :
    scalarValue (Tag.ofPlain x.text) x.text =
      .ok (if '.' ∈ x.text.toList then .float x else .text x.text) := by
  cases x with
  | nan => exact normal.elim
  | infinity negative => exact normal.elim
  | finite negative m e =>
      rcases Binary64.text_of_isNormal normal with
        ⟨p, shape, read⟩ | ⟨d, power, digit, nonzero, shape⟩
      · obtain ⟨c, rest, whole, digit⟩ := head_digit p
        have begins : beginsNumber (Binary64.finite negative m e).text.toList = true := by
          rw [shape, PointNumeral.chars, whole]
          exact beginsNumber_signed negative digit _
        have point : '.' ∈ (Binary64.finite negative m e).text.toList := by
          rw [shape]
          exact List.mem_append_right _ (List.mem_append_right _ List.mem_cons_self)
        have float : Tag.isFloat (Binary64.finite negative m e).text.toList = true :=
          shape ▸ isFloat_pointed negative p
        rw [ofPlain_of_beginsNumber begins, float, if_pos rfl, if_pos point, scalarValue,
          floatValue_pointed shape, read]
        cases negative <;> rfl
      · have point : '.' ∉ (Binary64.finite negative m e).text.toList := by
          rw [shape, List.mem_append]
          rintro (sign | mem)
          · exact absurd sign (by cases negative <;> decide)
          · exact not_mem_pointless digit power (by decide) (by decide) mem
        rw [ofPlain_pointless digit nonzero shape, if_neg point]
        rfl

/-! ### The texts that plain scalars are written with -/

/-- A text that can stand as a plain scalar: a sign may come first, then a digit or a
letter. -/
structure IsPlainText (cs : List Char) : Prop where
  chars : IsScalarText cs
  begins : ∃ negative c rest, cs = signText negative ++ c :: rest ∧
    (isAsciiDigit c = true ∨ 'a' ≤ c ∧ c ≤ 'z')

/-- A word of small letters. -/
theorem isPlainText_word {word : String} (nonempty : word.toList ≠ [])
    (letters : word.toList.all (fun c => 'a' ≤ c && c ≤ 'z') = true) :
    IsPlainText word.toList := by
  have letter (c : Char) (mem : c ∈ word.toList) : 'a' ≤ c ∧ c ≤ 'z' := by
    simpa only [Bool.and_eq_true, decide_eq_true_iff] using List.all_eq_true.1 letters c mem
  obtain ⟨c, rest, shape⟩ := List.exists_cons_of_ne_nil nonempty
  refine ⟨fun d mem => ?_, false, c, rest, shape, .inr (letter c (shape ▸ List.mem_cons_self))⟩
  simp only [isScalarChar, Bool.or_eq_true, Bool.and_eq_true, decide_eq_true_iff]
  exact .inl (.inl (.inl (.inr (letter d mem))))

theorem isPlainText_bool (b : Bool) : IsPlainText (Json.boolText b).toList := by
  cases b
  · exact isPlainText_word (by decide) (by decide)
  · exact isPlainText_word (by decide) (by decide)

theorem scalarValue_bool (b : Bool) :
    scalarValue (Tag.ofPlain (Json.boolText b)) (Json.boolText b) = .ok (.bool b) := by
  have tag : Tag.ofPlain (Json.boolText b) = .boolean := by cases b <;> decide
  have word : Tag.booleanWords.lookup (Json.boolText b) = some b := by cases b <;> decide
  rw [tag, scalarValue, toLower_of_isScalarText (isPlainText_bool b).chars, word]

theorem isPlainText_int (n : Int) : IsPlainText (toString n).toList := by
  obtain ⟨c, rest, shape, digit, digits⟩ := digits_int n
  rw [toList_toString_int]
  refine ⟨(isScalarText_signText _).append (isScalarText_digits (Text.isDigits_toDigits _)), ?_⟩
  exact ⟨_, c, rest, by rw [shape], .inl digit⟩

theorem isPlainText_float {x : Binary64} (normal : IsNormal x) : IsPlainText x.text.toList := by
  cases x with
  | nan => exact normal.elim
  | infinity negative => exact normal.elim
  | finite negative m e =>
      rcases Binary64.text_of_isNormal normal with ⟨p, shape, -⟩ | ⟨d, power, digit, -, shape⟩
      · obtain ⟨c, rest, whole, digit⟩ := head_digit p
        rw [shape]
        refine ⟨(isScalarText_signText _).append (isScalarText_chars p), ?_⟩
        rw [PointNumeral.chars, whole]
        exact ⟨negative, c, _, rfl, .inl digit⟩
      · rw [shape]
        refine ⟨(isScalarText_signText _).append ?_, negative, d, _, rfl, .inl digit⟩
        exact isScalarText_cons (isScalarChar_of_digit digit) (isScalarText_exponentText power)

end DataContract.Yaml
