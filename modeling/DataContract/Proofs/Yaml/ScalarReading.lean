/-
# Reading scalars that were written on one line

A plain scalar of digits, letters, signs and points goes on to the end of its characters,
and it ends before a comma, a bracket or the end of the document, also if a line begins in
between. A quoted text of printable characters is read back as it was, and it takes as much
room on its line as it has characters.
-/

import DataContract.Json
import DataContract.Proofs.Yaml.NumeralScalar
import DataContract.Text.Printable
import DataContract.Yaml.PlainScalar

set_option autoImplicit false

namespace DataContract.Yaml

open Binary64 (signText)
open Text (isAsciiDigit isPrintable)

/-! ### Places -/

/-- The place after some characters. -/
def Position.afterAll (p : Position) (cs : List Char) : Position := cs.foldl Position.after p

theorem Position.after_of_ordinary {c : Char} (p : Position) (noBreak : isBreak c = false)
    (noMark : c ≠ '\uFEFF') : p.after c = ⟨p.index + 1, p.line, p.column + 1⟩ := by
  rw [after, noBreak, if_neg Bool.false_ne_true, if_neg (by rwa [beq_iff_eq])]

/-! ### Plain scalars -/

theorem isBreak_of_isScalarChar {c : Char} (scalar : isScalarChar c = true) :
    isBreak c = false := by
  have other (d : Char) (none : isScalarChar d = false) : (c == d) = false :=
    beq_false_of_ne (ne_of_isScalarChar scalar none)
  rw [isBreak, other '\n' (by decide), other '\x85' (by decide), other '\u2028' (by decide),
    other '\u2029' (by decide)]
  rfl

theorem endsPlain_of_isScalarChar {c : Char} (scalar : isScalarChar c = true) (flow : Bool)
    (rest : List Char) : endsPlain flow c rest = false := by
  have other (d : Char) (none : isScalarChar d = false) : (c == d) = false :=
    beq_false_of_ne (ne_of_isScalarChar scalar none)
  rw [endsPlain, isBreak_of_isScalarChar scalar, isSpace, isFlowIndicator, other ' ' (by decide),
    other '\t' (by decide), other ':' (by decide), other '?' (by decide), other ',' (by decide),
    other '[' (by decide), other ']' (by decide), other '\x7b' (by decide),
    other '\x7d' (by decide)]
  simp

/-- The characters of a plain scalar are taken one after the other. -/
theorem readPlainIn_word (flow : Bool) (indent : Nat) {cs : List Char} (scalar : IsScalarText cs)
    (out : List Char) (p : Position) (rest : List Char) :
    readPlainIn flow indent .word out p (cs ++ rest) =
      readPlainIn flow indent .word (cs.reverse ++ out) (p.afterAll cs) rest := by
  induction cs generalizing out p with
  | nil => rfl
  | cons c cs ih =>
      have char := scalar c List.mem_cons_self
      have space : (c == ' ') = false := beq_false_of_ne (ne_of_isScalarChar char (by decide))
      rw [List.cons_append, readPlainIn]
      simp only [space, isBreak_of_isScalarChar char, endsPlain_of_isScalarChar char]
      rw [List.reverse_cons, List.append_assoc]
      exact ih (fun d mem => scalar d (List.mem_cons_of_mem _ mem)) _ _

/-- What a value is followed by, apart from blanks: the end of the document, or in a flow
collection a comma or a closing bracket. -/
def EndsValue (flow : Bool) (tail : List Char) : Prop :=
  tail = [] ∨ flow = true ∧ ∃ c rest, tail = c :: rest ∧ (c = ',' ∨ c = ']' ∨ c = '\x7d')

/-- The blanks between a value and what follows it: nothing, or the beginning of a line. -/
def IsGap (gap : List Char) : Prop := gap = [] ∨ ∃ spaces, gap = '\n' :: List.replicate spaces ' '

theorem not_startsSeparator {flow : Bool} {tail : List Char} (ends : EndsValue flow tail)
    (spaces : Nat) : startsSeparator (List.replicate spaces ' ' ++ tail) = false := by
  cases spaces with
  | zero =>
      rcases ends with rfl | ⟨-, c, rest, rfl, rfl | rfl | rfl⟩ <;> rfl
  | succ n => rfl

/-- The character after a value ends a plain scalar. -/
theorem endsPlain_of_endsValue {flow : Bool} {c : Char} {rest : List Char}
    (ends : EndsValue flow (c :: rest)) :
    (c == ' ') = false ∧ isBreak c = false ∧ endsPlain flow c rest = true := by
  rcases ends with none | ⟨rfl, d, more, same, mark⟩
  · cases none
  · cases same
    rcases mark with rfl | rfl | rfl <;> exact ⟨rfl, rfl, by simp [endsPlain, isFlowIndicator]⟩

/-- After the beginning of a line, spaces are passed over up to the end of the scalar. -/
theorem readPlainIn_lines {flow : Bool} {tail : List Char} (ends : EndsValue flow tail)
    (indent : Nat) (ending : Char) (breaks out : List Char) (spaces : Nat) (p : Position) :
    ∃ q, readPlainIn flow indent (.lines ending breaks) out p (List.replicate spaces ' ' ++ tail) =
      ⟨String.ofList out.reverse, ⟨q, tail⟩, true⟩ := by
  induction spaces generalizing p with
  | zero =>
      refine ⟨p, ?_⟩
      rw [List.replicate_zero, List.nil_append]
      cases tail with
      | nil => rfl
      | cons c rest =>
          obtain ⟨space, noBreak, plain⟩ := endsPlain_of_endsValue ends
          rw [readPlainIn]
          simp only [space, noBreak, resumesPlain, plain]
          simp
  | succ n ih =>
      obtain ⟨q, read⟩ := ih (p.after ' ')
      refine ⟨q, ?_⟩
      rw [List.replicate_succ, List.cons_append, readPlainIn]
      exact read

/-- A plain scalar ends where its value ends, and the blanks after it are passed over. -/
theorem readPlainIn_end {flow : Bool} {tail gap : List Char} (ends : EndsValue flow tail)
    (blank : IsGap gap) (indent : Nat) (out : List Char) (p : Position) :
    ∃ q broke, readPlainIn flow indent .word out p (gap ++ tail) =
      ⟨String.ofList out.reverse, ⟨q, tail⟩, broke⟩ := by
  rcases blank with rfl | ⟨spaces, rfl⟩
  · refine ⟨p, false, ?_⟩
    rw [List.nil_append]
    cases tail with
    | nil => rfl
    | cons c rest =>
        obtain ⟨space, noBreak, plain⟩ := endsPlain_of_endsValue ends
        rw [readPlainIn]
        simp only [space, noBreak, plain]
        simp
  · obtain ⟨q, read⟩ := readPlainIn_lines ends indent '\n' [] out spaces (p.after '\n')
    refine ⟨q, true, ?_⟩
    rw [List.cons_append, readPlainIn]
    simp only [not_startsSeparator ends spaces]
    exact read

/-- A plain scalar is read as it was written. -/
theorem readPlain_eq {flow : Bool} {cs gap tail : List Char} (scalar : IsScalarText cs)
    (blank : IsGap gap) (ends : EndsValue flow tail) (indent : Nat) (p : Position) :
    ∃ q broke, readPlain flow indent ⟨p, cs ++ (gap ++ tail)⟩ =
      ⟨String.ofList cs, ⟨q, tail⟩, broke⟩ := by
  obtain ⟨q, broke, read⟩ := readPlainIn_end ends blank indent (cs.reverse ++ []) (p.afterAll cs)
  refine ⟨q, broke, ?_⟩
  rw [readPlain, readPlainIn_word flow indent scalar, read, List.append_nil, List.reverse_reverse]

/-! ### Printable characters -/

/-- Printable ASCII ends before the first gap of the table. -/
theorem isPrintable_range {c : Char} (printable : isPrintable c = true) :
    0x20 ≤ c.toNat ∧ (c.toNat ≤ 0x7e ∨ 0xa1 ≤ c.toNat) := by
  rw [isPrintable, Text.printableRanges, Text.Range.covers] at printable
  split at printable
  · cases printable
  · split at printable
    · omega
    · rw [Text.Range.covers] at printable
      split at printable
      · cases printable
      · omega

/-- Numbers and words are written in printable characters. -/
theorem isPrintable_of_isScalarChar {c : Char} (scalar : isScalarChar c = true) :
    isPrintable c = true := by
  have range : 0x20 ≤ c.toNat ∧ c.toNat ≤ 0x7e := by
    simp only [isScalarChar, Bool.or_eq_true, Bool.and_eq_true, decide_eq_true_iff, beq_iff_eq,
      Text.isAsciiDigit_iff] at scalar
    rcases scalar with (((digit | letter) | rfl) | rfl) | rfl
    · omega
    · have least : ('a').toNat ≤ c.toNat := letter.1
      have greatest : c.toNat ≤ ('z').toNat := letter.2
      exact ⟨le_trans (by decide) least, le_trans greatest (by decide)⟩
    all_goals decide
  rw [isPrintable, Text.printableRanges, Text.Range.covers, if_neg (by omega), if_pos range.2]

theorem ne_of_isPrintable {c : Char} (printable : isPrintable c = true) {d : Char}
    (other : isPrintable d = false) : c ≠ d := by
  rintro rfl
  rw [printable] at other
  cases other

theorem isBreak_of_isPrintable {c : Char} (printable : isPrintable c = true) :
    isBreak c = false := by
  have other (d : Char) (none : isPrintable d = false) : (c == d) = false :=
    beq_false_of_ne (ne_of_isPrintable printable none)
  rw [isBreak, other '\n' (by decide), other '\x85' (by decide), other '\u2028' (by decide +kernel),
    other '\u2029' (by decide +kernel)]
  rfl

theorem isPrintable_ne_mark {c : Char} (printable : isPrintable c = true) : c ≠ '\uFEFF' :=
  ne_of_isPrintable printable (by decide +kernel)

/-- A document may hold every printable character. -/
theorem isAdmitted_of_isPrintable {c : Char} (printable : isPrintable c = true) :
    isAdmitted c = true := by
  obtain ⟨least, range⟩ := isPrintable_range printable
  have first : c.toNat ≠ 0xFFFE := fun same =>
    ne_of_isPrintable printable (d := '\uFFFE') (by decide +kernel) (Char.toNat_inj.1 same)
  have second : c.toNat ≠ 0xFFFF := fun same =>
    ne_of_isPrintable printable (d := '\uFFFF') (by decide +kernel) (Char.toNat_inj.1 same)
  simp only [isAdmitted, Bool.or_eq_true, Bool.and_eq_true, decide_eq_true_iff, beq_iff_eq]
  omega

/-! ### Quoted texts -/

/-- Whether a text is made of printable characters. -/
def IsPrintableText (s : String) : Prop := ∀ c ∈ s.toList, isPrintable c = true

instance (s : String) : Decidable (IsPrintableText s) :=
  List.decidableBAll (fun c => isPrintable c = true) s.toList

/-- Of the printable characters only quotes and backslashes are escaped. -/
theorem quotedChar_of_isPrintable {c : Char} (printable : isPrintable c = true) :
    Json.quotedChar c = if c == '\x22' || c == '\\' then ['\\', c] else [c] := by
  have other (d : Char) (none : isPrintable d = false) : (c == d) = false :=
    beq_false_of_ne (ne_of_isPrintable printable none)
  have low : ¬c.toNat < 0x20 := by
    have := (isPrintable_range printable).1
    omega
  rw [Json.quotedChar, other '\n' (by decide), other '\r' (by decide), other '\t' (by decide),
    other '\x0c' (by decide), other '\x08' (by decide), if_neg low]
  simp only [Bool.false_eq_true, if_false]

/-- A printable character is taken as it is, unless it is escaped. -/
theorem quotedStep_plain {c : Char} (printable : isPrintable c = true) (quote : c ≠ '\x22')
    (escape : c ≠ '\\') (spaces : Nat) (out rest : List Char) : ∃ spaces',
    quotedStep true (.content spaces) out c rest = .ok (.next (.content spaces') (c :: out)) := by
  refine ⟨if isSpace c then spaces + 1 else 0, ?_⟩
  rw [quotedStep, contentStep, if_pos rfl, if_neg (by rwa [beq_iff_eq]),
    if_neg (by rwa [beq_iff_eq]), contentStep.plain, isBreak_of_isPrintable printable]
  rfl

/-- The written form of a printable character is read as the character, and takes its
room on the line. -/
theorem readQuotedIn_quotedChar {c : Char} (printable : isPrintable c = true) (spaces : Nat)
    (out : List Char) (p : Position) (rest : List Char) : ∃ spaces' q,
    readQuotedIn true (.content spaces) out p (Json.quotedChar c ++ rest) =
      readQuotedIn true (.content spaces') (c :: out) q rest ∧
    q.line = p.line ∧ q.index = p.index + (Json.quotedChar c).length := by
  rw [quotedChar_of_isPrintable printable]
  have after (d : Char) (ordinary : isPrintable d = true) (p : Position) :=
    p.after_of_ordinary (isBreak_of_isPrintable ordinary) (isPrintable_ne_mark ordinary)
  by_cases escaped : (c == '\x22' || c == '\\') = true
  · have letter : escapeLetter? c = some c := by
      rw [Bool.or_eq_true, beq_iff_eq, beq_iff_eq] at escaped
      rcases escaped with rfl | rfl <;> rfl
    refine ⟨0, (p.after '\\').after c, ?_, ?_⟩
    · rw [if_pos escaped, List.cons_append, List.cons_append, List.nil_append, readQuotedIn,
        show quotedStep true (.content spaces) out '\\' (c :: rest) = .ok (.next .escape out) from
          rfl]
      dsimp only
      rw [readQuotedIn, quotedStep, letter]
    · rw [if_pos escaped, after '\\' (by decide), after c printable]
      exact ⟨rfl, rfl⟩
  · have special : c ≠ '\x22' ∧ c ≠ '\\' := by
      rw [Bool.or_eq_true, beq_iff_eq, beq_iff_eq, not_or] at escaped
      exact escaped
    obtain ⟨spaces', step⟩ := quotedStep_plain printable special.1 special.2 spaces out rest
    refine ⟨spaces', p.after c, ?_, ?_⟩
    · rw [if_neg escaped, List.singleton_append, readQuotedIn, step]
    · rw [if_neg escaped, after c printable]
      exact ⟨rfl, rfl⟩

theorem readQuotedIn_body {cs : List Char} (printable : ∀ c ∈ cs, isPrintable c = true)
    (spaces : Nat) (out : List Char) (p : Position) (rest : List Char) : ∃ q,
    readQuotedIn true (.content spaces) out p (cs.flatMap Json.quotedChar ++ '\x22' :: rest) =
      .ok (String.ofList (out.reverse ++ cs), ⟨q, rest⟩) ∧
    q.line = p.line ∧ q.index = p.index + (cs.flatMap Json.quotedChar).length + 1 := by
  induction cs generalizing spaces out p with
  | nil =>
      refine ⟨p.after '\x22', ?_, rfl, rfl⟩
      rw [List.append_nil]
      rfl
  | cons c cs ih =>
      obtain ⟨spaces', q, step, line, index⟩ := readQuotedIn_quotedChar
        (printable c List.mem_cons_self) spaces out p (cs.flatMap Json.quotedChar ++ '\x22' :: rest)
      obtain ⟨q', read, line', index'⟩ := ih (fun d mem => printable d (List.mem_cons_of_mem _ mem))
        spaces' (c :: out) q
      refine ⟨q', ?_, line'.trans line, ?_⟩
      · rw [List.flatMap_cons, List.append_assoc, step, read, List.reverse_cons, List.append_assoc]
        rfl
      · rw [index', index, List.flatMap_cons, List.length_append]
        omega

/-- A quoted text is read as the text, on the same line. -/
theorem readQuoted_eq {s : String} (printable : IsPrintableText s) (p : Position)
    (rest : List Char) : ∃ q,
    readQuoted true ⟨p, (Json.quoted s).toList ++ rest⟩ = .ok (s, ⟨q, rest⟩) ∧
    q.line = p.line ∧ q.index = p.index + (Json.quoted s).toList.length := by
  obtain ⟨q, read, line, index⟩ :=
    readQuotedIn_body printable 0 [] (p.after '\x22') rest
  have written : (Json.quoted s).toList =
      '\x22' :: (s.toList.flatMap Json.quotedChar ++ ['\x22']) := by
    rw [Json.quoted, String.toList_ofList]
    rfl
  refine ⟨q, ?_, line, ?_⟩
  · rw [written, readQuoted]
    show readQuotedIn true (.content 0) [] (p.after '\x22')
      (s.toList.flatMap Json.quotedChar ++ ['\x22'] ++ rest) = _
    rw [List.append_assoc, List.singleton_append, read, List.reverse_nil, List.nil_append,
      String.ofList_toList]
  · rw [index, written, List.length_cons, List.length_append,
      show (p.after '\x22').index = p.index + 1 from rfl]
    simp only [List.length_singleton]
    omega

end DataContract.Yaml
