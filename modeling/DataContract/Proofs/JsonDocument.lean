/-
# JSON documents

What a JSON document is, said apart from how values are written here: for each value the grammar
of the format gives the texts that are its documents. White space may stand around every part,
and a character may be written as itself or by an escape (all but the pairs of escapes for one
character). A number that is not finite has no document.

What is written for a value is a document of it exactly if all numbers in it are finite.
-/

import DataContract.Proofs.Json
import DataContract.Proofs.Number.FloatText
import DataContract.Proofs.Schema.Grammar
import DataContract.Proofs.Text.Hexadecimal
import Mathlib.Computability.Language

set_option autoImplicit false

namespace DataContract.Json

open Binary64 (IsNormal PointNumeral Writes exponentText exponentText_digits exists_writes signText)
open Declaration (bind_eq_ok map_eq_ok)
open Text (IsDigits isAsciiDigit)

/-! ## The grammar -/

/-- A character alone. -/
def mark (c : Char) : Language Char := {[c]}

/-- White space. -/
def blank : Language Char := {t | ∀ c ∈ t, c ∈ [' ', '\t', '\n', '\r']}

/-- Digits. -/
def digitRun : Language Char := {t | t ≠ [] ∧ IsDigits t}

/-- The digits before the point. They begin with a zero only if it is alone. -/
def wholePart : Language Char := {t | t ∈ digitRun ∧ (t.head? = some '0' → t = ['0'])}

/-- The numbers: a sign, a whole part, a fraction and an exponent. -/
def number : Language Char :=
  (1 + mark '-') * wholePart * (1 + mark '.' * digitRun) *
    (1 + (mark 'e' + mark 'E') * (1 + mark '+' + mark '-') * digitRun)

/-- The numbers that stand for a floating-point number. What is written for a normal number is
read as the number. -/
def numerals : Binary64 → Language Char
  | .finite negative m e =>
    {t | t ∈ number ∧ (IsNormal (.finite negative m e) →
      Binary64.ofText? (String.ofList t) = some (.finite negative m e))}
  | _ => 0

/-- The characters that have a letter of their own, with the letter. -/
def letters : List (Char × Char) :=
  [('\x22', '\x22'), ('\\', '\\'), ('/', '/'), ('\x08', 'b'), ('\x0c', 'f'), ('\n', 'n'),
    ('\r', 'r'), ('\t', 't')]

/-- The ways to write a character inside quotes. -/
inductive Spells (c : Char) : List Char → Prop
  | itself : 0x20 ≤ c.toNat → c ≠ '\x22' → c ≠ '\\' → Spells c [c]
  | letter {e : Char} : (c, e) ∈ letters → Spells c ['\\', e]
  | code {digits : List Char} : digits.length = 4 →
      (∀ d ∈ digits, (Text.hexValue? d).isSome = true) → Text.numberIn 16 digits = c.toNat →
      Spells c ('\\' :: 'u' :: digits)

/-- The ways to write some characters. -/
def spellings (cs : List Char) : Language Char :=
  (cs.map fun c => show Language Char from {t | Spells c t}).prod

/-- The ways to write a text in quotes. -/
def literal (s : String) : Language Char := mark '\x22' * spellings s.toList * mark '\x22'

/-- The ways to write a key: its text in quotes. -/
def keyLiteral (k : Value) : Language Char := {t | ∃ s, keyText k = .ok s ∧ t ∈ literal s}

/-- Parts with commas between them, and white space around each. -/
def separated : List (Language Char) → Language Char
  | [] => blank
  | [part] => blank * part * blank
  | part :: next :: rest => blank * part * blank * mark ',' * separated (next :: rest)

mutual

/-- The documents of a value; with `lenient`, values without a JSON form have the text by which
they are shown. -/
def documents (lenient : Bool) : Value → Language Char
  | .null => {"null".toList}
  | .bool true => {"true".toList}
  | .bool false => {"false".toList}
  | .int n => {t | t ∈ number ∧ t = (toString n).toList}
  | .float x => numerals x
  | .text s => literal s
  | .list items => mark '[' * separated (itemDocuments lenient items) * mark ']'
  | .tuple items => mark '[' * separated (itemDocuments lenient items) * mark ']'
  | .object entries => mark '\x7b' * separated (entryDocuments lenient entries) * mark '\x7d'
  | .shared _ => 0
  | v => if lenient then literal v.shown else 0
  termination_by structural v => v

/-- The documents of some items. -/
def itemDocuments (lenient : Bool) : List Value → List (Language Char)
  | [] => []
  | v :: rest => documents lenient v :: itemDocuments lenient rest
  termination_by structural items => items

/-- The documents of some entries: a key, a colon and a value. -/
def entryDocuments (lenient : Bool) : List (Value × Value) → List (Language Char)
  | [] => []
  | (k, v) :: rest =>
    keyLiteral k * blank * mark ':' * blank * documents lenient v :: entryDocuments lenient rest
  termination_by structural entries => entries

end

mutual

/-- Whether all numbers in a value are finite. -/
def allFinite : Value → Bool
  | .float x => x.isFinite
  | .list items => itemsFinite items
  | .tuple items => itemsFinite items
  | .object entries => entriesFinite entries
  | _ => true
  termination_by structural v => v

/-- Whether all numbers in some items are finite. -/
def itemsFinite : List Value → Bool
  | [] => true
  | v :: rest => allFinite v && itemsFinite rest
  termination_by structural items => items

/-- Whether all numbers in the values of some entries are finite. -/
def entriesFinite : List (Value × Value) → Bool
  | [] => true
  | (_, v) :: rest => allFinite v && entriesFinite rest
  termination_by structural entries => entries

end

/-! ## Numbers -/

theorem mem_mark (c : Char) : [c] ∈ mark c := rfl

theorem digitRun_mem {t : List Char} (nonempty : t ≠ []) (digits : IsDigits t) : t ∈ digitRun :=
  ⟨nonempty, digits⟩

theorem signText_mem (negative : Bool) : signText negative ∈ 1 + mark '-' := by
  cases negative with
  | true => exact .inr rfl
  | false => exact .inl rfl

theorem exponentText_mem (power : Int) :
    exponentText power ∈ (mark 'e' + mark 'E') * (1 + mark '+' + mark '-') * digitRun := by
  obtain ⟨digits, isDigits, nonempty, -, shape⟩ := exponentText_digits power
  have sign : [if power < 0 then '-' else '+'] ∈ 1 + mark '+' + mark '-' := by
    split
    · exact .inr rfl
    · exact .inl (.inr rfl)
  have letter : ['e'] ∈ mark 'e' + mark 'E' := .inl rfl
  rw [shape]
  exact Language.append_mem_mul (Language.append_mem_mul letter sign)
    (digitRun_mem nonempty isDigits)

/-- A whole number has no fraction and no exponent. -/
theorem whole_mem_number (negative : Bool) {digits : List Char} (whole : digits ∈ wholePart) :
    signText negative ++ digits ∈ number := by
  have signed := Language.append_mem_mul (signText_mem negative) whole
  have none (L : Language Char) : [] ∈ 1 + L := .inl rfl
  rw [← List.append_nil (signText negative ++ digits)]
  refine Language.append_mem_mul ?_ (none _)
  rw [← List.append_nil (signText negative ++ digits)]
  exact Language.append_mem_mul signed (none _)

theorem toString_mem_number (n : Int) : (toString n).toList ∈ number := by
  rw [Binary64.toList_toString_int]
  refine whole_mem_number _ ⟨⟨Nat.toDigits_ne_nil, Text.isDigits_toDigits _⟩, fun zero => ?_⟩
  rcases Nat.eq_zero_or_pos n.natAbs with same | positive
  · rw [same]
    rfl
  · obtain ⟨rest, shape⟩ := List.head?_eq_some_iff.mp zero
    exact absurd rfl (Text.head_toDigits_ne_zero positive shape)

theorem writes_mem_number (negative : Bool) {cs : List Char} {digits : Nat} {place : Int}
    (writes : Writes cs digits place) : signText negative ++ cs ∈ number := by
  have signed {whole : List Char} (own : whole ∈ wholePart) :=
    Language.append_mem_mul (signText_mem negative) own
  cases writes with
  | point p =>
      have whole : p.whole ∈ wholePart := ⟨⟨p.whole_ne_nil, p.whole_digits⟩, p.whole_leads⟩
      have fraction : '.' :: p.fraction ∈ 1 + mark '.' * digitRun :=
        .inr (Language.append_mem_mul (mem_mark '.')
          (digitRun_mem p.fraction_ne_nil p.fraction_digits))
      have suffix : p.suffix ∈
          1 + (mark 'e' + mark 'E') * (1 + mark '+' + mark '-') * digitRun := by
        rw [PointNumeral.suffix]
        cases p.power with
        | none => exact .inl rfl
        | some power => exact .inr (exponentText_mem power)
      have all := Language.append_mem_mul (Language.append_mem_mul (signed whole) fraction) suffix
      simpa [number, PointNumeral.chars] using all
  | @pointless d _ digit nonzero =>
      have whole : [d] ∈ wholePart :=
        ⟨⟨List.cons_ne_nil _ _, fun c mem => List.mem_singleton.mp mem ▸ digit⟩,
          fun zero => absurd (Option.some.inj zero) nonzero⟩
      have suffix : exponentText place ∈
          1 + (mark 'e' + mark 'E') * (1 + mark '+' + mark '-') * digitRun :=
        .inr (exponentText_mem place)
      have none : [] ∈ 1 + mark '.' * digitRun := .inl rfl
      have all := Language.append_mem_mul (Language.append_mem_mul (signed whole) none) suffix
      simpa [number] using all

/-- What is written for a finite number stands for it. -/
theorem floatText_mem {x : Binary64} (finite : x.isFinite = true) :
    (floatText x).toList ∈ numerals x := by
  cases x with
  | nan | infinity _ => cases finite
  | finite negative m e =>
      obtain ⟨cs, digits, place, writes, shape, -⟩ := exists_writes m e
      refine ⟨?_, fun normal => ?_⟩
      · show (Binary64.text _).toList ∈ number
        rw [shape]
        exact writes_mem_number negative writes
      · rw [String.ofList_toList]
        exact Binary64.ofText?_text normal

/-! ## Texts -/

/-- A character is written in one of the ways to write it. -/
theorem quotedChar_spells (c : Char) : Spells c (quotedChar c) := by
  rw [quotedChar]
  split
  next special =>
    rw [Bool.or_eq_true, beq_iff_eq, beq_iff_eq] at special
    rcases special with rfl | rfl <;> exact .letter (by decide)
  next plain =>
    rw [Bool.not_eq_true, Bool.or_eq_false_iff, beq_eq_false_iff_ne, beq_eq_false_iff_ne] at plain
    have own {d e : Char} (same : (c == d) = true) (listed : (d, e) ∈ letters) :
        Spells c ['\\', e] := .letter (eq_of_beq same ▸ listed)
    repeat' split
    · exact own ‹_› (by decide)
    · exact own ‹_› (by decide)
    · exact own ‹_› (by decide)
    · exact own ‹_› (by decide)
    · exact own ‹_› (by decide)
    next low =>
      refine .code (Text.length_hexDigits 4 _) (fun d mem => ?_) ?_
      · obtain ⟨v, small, rfl⟩ := Text.exists_of_mem_hexDigits mem
        rw [Text.hexValue?_hexDigit small]
        rfl
      · rw [Text.numberIn_hexDigits]
        exact Nat.mod_eq_of_lt (by omega)
    next high => exact .itself (by omega) plain.1 plain.2

theorem flatMap_mem_spellings (cs : List Char) : cs.flatMap quotedChar ∈ spellings cs := by
  induction cs with
  | nil => rfl
  | cons c rest ih =>
      rw [spellings, List.map_cons, List.prod_cons, List.flatMap_cons]
      exact Language.append_mem_mul (quotedChar_spells c) ih

/-- A text in quotes is written in one of the ways to write it. -/
theorem quoted_mem (s : String) : (quoted s).toList ∈ literal s := by
  rw [quoted, String.toList_ofList]
  exact Language.append_mem_mul
    (Language.append_mem_mul (mem_mark '\x22') (flatMap_mem_spellings s.toList)) (mem_mark '\x22')

/-! ## Parts -/

theorem nil_mem_blank : [] ∈ blank := fun _ mem => absurd mem List.not_mem_nil

theorem newLine_mem_blank (depth : Nat) : (newLine depth).toList ∈ blank := by
  intro c mem
  rw [newLine, String.toList_ofList] at mem
  rcases List.mem_cons.mp mem with rfl | mem
  · decide
  · rw [List.eq_of_mem_replicate mem]
    decide

theorem joinWith_cons_cons (separator part next : String) (rest : List String) :
    joinWith separator (part :: next :: rest) =
      part ++ separator ++ joinWith separator (next :: rest) := by
  rw [← String.toList_inj]
  simp only [joinWith, String.toList_intercalate, String.toList_append, List.map_cons]
  rw [List.intercalate_cons_of_ne_nil (List.cons_ne_nil _ _), List.append_assoc]

section Parts

variable {parts : List String} {languages : List (Language Char)}
  (each : List.Forall₂ (fun part language => part.toList ∈ language) parts languages)

include each

/-- Parts that are joined by commas and new lines. -/
theorem joined_mem (nonempty : parts ≠ []) (depth outer : Nat) :
    (newLine depth ++ joinWith ("," ++ newLine depth) parts ++ newLine outer).toList ∈
      separated languages := by
  induction each with
  | nil => exact absurd rfl nonempty
  | @cons part language parts languages own others ih =>
      cases others with
      | nil =>
          have all := Language.append_mem_mul
            (Language.append_mem_mul (newLine_mem_blank depth) own) (newLine_mem_blank outer)
          simpa [separated, joinWith, String.toList_intercalate] using all
      | @cons next second parts languages =>
          have later := ih (List.cons_ne_nil _ _)
          have all := Language.append_mem_mul (Language.append_mem_mul (Language.append_mem_mul
            (Language.append_mem_mul (newLine_mem_blank depth) own) nil_mem_blank)
            (mem_mark ',')) later
          rw [joinWith_cons_cons]
          simpa [separated] using all

/-- Parts in brackets. -/
theorem bracketed_mem (opening closing : Char) (depth : Nat) :
    (bracketed (String.singleton opening) (String.singleton closing) depth parts).toList ∈
      mark opening * separated languages * mark closing := by
  cases each with
  | nil =>
      have all := Language.append_mem_mul
        (Language.append_mem_mul (mem_mark opening) nil_mem_blank) (mem_mark closing)
      simpa [bracketed, separated] using all
  | @cons part language parts languages own others =>
      have inside := joined_mem (.cons own others) (List.cons_ne_nil _ _) (depth + 1) depth
      have all := Language.append_mem_mul
        (Language.append_mem_mul (mem_mark opening) inside) (mem_mark closing)
      simpa [bracketed] using all

end Parts

/-- If there are parts in brackets, there is one of each. -/
theorem exists_mem_of_separated {languages : List (Language Char)} {t : List Char}
    (mem : t ∈ separated languages) : ∀ language ∈ languages, ∃ part, part ∈ language := by
  induction languages generalizing t with
  | nil => exact fun _ none => absurd none List.not_mem_nil
  | cons language rest ih =>
      cases rest with
      | nil =>
          obtain ⟨_, ⟨_, _, part, own, _⟩, _⟩ := mem
          exact fun L one => List.mem_singleton.mp one ▸ ⟨part, own⟩
      | cons next rest =>
          obtain ⟨_, ⟨_, ⟨_, ⟨_, _, part, own, _⟩, _⟩, _⟩, others, later, _⟩ := mem
          exact List.forall_mem_cons.mpr ⟨⟨part, own⟩, ih later⟩

theorem exists_mem_of_bracketed {opening closing : Char} {languages : List (Language Char)}
    {t : List Char} (mem : t ∈ mark opening * separated languages * mark closing) :
    ∀ language ∈ languages, ∃ part, part ∈ language := by
  obtain ⟨_, ⟨_, _, inside, own, _⟩, _⟩ := mem
  exact exists_mem_of_separated own

/-! ## Values -/

theorem otherText_mem {lenient : Bool} {v : Value} {s : String}
    (written : otherText lenient v = .ok s) :
    s.toList ∈ (if lenient then literal v.shown else 0 : Language Char) := by
  cases lenient with
  | false => cases written
  | true =>
      cases written
      exact quoted_mem v.shown

mutual

/-- What is written for a value whose numbers are finite is a document of it. -/
theorem text_mem_documents {lenient : Bool} {depth : Nat} {v : Value} {s : String}
    (finite : allFinite v = true) (written : text lenient depth v = .ok s) :
    s.toList ∈ documents lenient v := by
  cases v with
  | null =>
      cases written
      exact rfl
  | bool b =>
      cases written
      cases b <;> exact rfl
  | int n =>
      cases written
      exact ⟨toString_mem_number n, rfl⟩
  | float x =>
      cases written
      exact floatText_mem finite
  | text own =>
      cases written
      exact quoted_mem own
  | list items | tuple items =>
      obtain ⟨parts, each, rfl⟩ := map_eq_ok.mp written
      exact bracketed_mem (itemTexts_mem finite each) '[' ']' depth
  | object entries =>
      obtain ⟨parts, each, rfl⟩ := map_eq_ok.mp written
      exact bracketed_mem (entryTexts_mem finite each) '\x7b' '\x7d' depth
  | shared cell => cases written
  | _ => exact otherText_mem written
  termination_by structural v

theorem itemTexts_mem {lenient : Bool} {depth : Nat} {items : List Value} {parts : List String}
    (finite : itemsFinite items = true) (written : itemTexts lenient depth items = .ok parts) :
    List.Forall₂ (fun part language => part.toList ∈ language) parts
      (itemDocuments lenient items) := by
  cases items with
  | nil =>
      cases written
      exact .nil
  | cons v rest =>
      obtain ⟨first, others⟩ := Bool.and_eq_true_iff.mp finite
      obtain ⟨part, own, written⟩ := bind_eq_ok.mp written
      obtain ⟨more, later, written⟩ := bind_eq_ok.mp written
      cases written
      exact .cons (text_mem_documents first own) (itemTexts_mem others later)
  termination_by structural items

theorem entryTexts_mem {lenient : Bool} {depth : Nat} {entries : List (Value × Value)}
    {parts : List String} (finite : entriesFinite entries = true)
    (written : entryTexts lenient depth entries = .ok parts) :
    List.Forall₂ (fun part language => part.toList ∈ language) parts
      (entryDocuments lenient entries) := by
  match entries with
  | [] =>
      cases written
      exact .nil
  | (k, v) :: rest =>
      obtain ⟨first, others⟩ := Bool.and_eq_true_iff.mp finite
      obtain ⟨name, key, written⟩ := bind_eq_ok.mp written
      obtain ⟨part, own, written⟩ := bind_eq_ok.mp written
      obtain ⟨more, later, written⟩ := bind_eq_ok.mp written
      cases written
      refine .cons ?_ (entryTexts_mem others later)
      have named : (quoted name).toList ∈ keyLiteral k := ⟨name, key, quoted_mem name⟩
      have space : [' '] ∈ blank := by
        intro c mem
        rw [List.mem_singleton.mp mem]
        decide
      have all := Language.append_mem_mul (Language.append_mem_mul (Language.append_mem_mul
        (Language.append_mem_mul named nil_mem_blank) (mem_mark ':')) space)
        (text_mem_documents first own)
      simpa using all
  termination_by structural entries

end

mutual

/-- All numbers are finite in a value that has a document. -/
theorem allFinite_of_mem {lenient : Bool} {v : Value} {t : List Char}
    (mem : t ∈ documents lenient v) : allFinite v = true := by
  cases v with
  | float x =>
      cases x with
      | nan | infinity _ => cases mem
      | finite negative m e => rfl
  | list items | tuple items => exact itemsFinite_of_mem (exists_mem_of_bracketed mem)
  | object entries => exact entriesFinite_of_mem (exists_mem_of_bracketed mem)
  | _ => rfl
  termination_by structural v

theorem itemsFinite_of_mem {lenient : Bool} {items : List Value}
    (each : ∀ language ∈ itemDocuments lenient items, ∃ part, part ∈ language) :
    itemsFinite items = true := by
  cases items with
  | nil => rfl
  | cons v rest =>
      obtain ⟨⟨part, own⟩, others⟩ := List.forall_mem_cons.mp each
      exact Bool.and_eq_true_iff.mpr ⟨allFinite_of_mem own, itemsFinite_of_mem others⟩
  termination_by structural items

theorem entriesFinite_of_mem {lenient : Bool} {entries : List (Value × Value)}
    (each : ∀ language ∈ entryDocuments lenient entries, ∃ part, part ∈ language) :
    entriesFinite entries = true := by
  match entries with
  | [] => rfl
  | (k, v) :: rest =>
      obtain ⟨⟨part, _, _, document, own, _⟩, others⟩ := List.forall_mem_cons.mp each
      exact Bool.and_eq_true_iff.mpr ⟨allFinite_of_mem own, entriesFinite_of_mem others⟩
  termination_by structural entries

end

/-- What is written for a value is a document of it exactly if its numbers are finite. -/
theorem render_mem_documents_iff {lenient : Bool} {v : Value} {s : String}
    (written : render lenient v = .ok s) :
    s.toList ∈ documents lenient v ↔ allFinite v = true :=
  ⟨allFinite_of_mem, fun finite => text_mem_documents finite written⟩

end DataContract.Json
