/-
# Values that are shown as words

A value is shown by a text, and a text by itself. The other values are shown with digits, signs
or brackets, and with capitals at the least, so that none of them is taken for a word of lower-case
letters. The exceptions are the undefined number and the positive infinite one.
-/

import DataContract.Proofs.Text.Numeral
import DataContract.Value.Text

set_option autoImplicit false

namespace DataContract

/-- A text that holds a character other than a lower-case letter. -/
def IsNoWord (s : String) : Prop := ∃ c ∈ s.toList, c.isLower = false

namespace IsNoWord

variable {s t : String}

theorem left (holds : IsNoWord s) (t : String) : IsNoWord (s ++ t) := by
  obtain ⟨c, mem, other⟩ := holds
  exact ⟨c, by simp [mem], other⟩

theorem right (holds : IsNoWord t) (s : String) : IsNoWord (s ++ t) := by
  obtain ⟨c, mem, other⟩ := holds
  exact ⟨c, by simp [mem], other⟩

theorem ofList {cs : List Char} {c : Char} (mem : c ∈ cs) (other : c.isLower = false) :
    IsNoWord (String.ofList cs) := ⟨c, by simpa using mem, other⟩

end IsNoWord

theorem isNoWord_natural (n : Nat) : IsNoWord (toString n) := by
  obtain ⟨c, mem⟩ := List.exists_mem_of_ne_nil _ (Nat.toDigits_ne_nil (n := n) (b := 10))
  refine ⟨c, by rwa [Text.toList_toString], ?_⟩
  have digit := Nat.isDigit_of_mem_toDigits (by decide) (by decide) mem
  rw [Char.isDigit, Bool.and_eq_true, decide_eq_true_eq, decide_eq_true_eq] at digit
  have below : ¬ 'a'.val ≤ c.val := fun lower => absurd (UInt32.le_trans lower digit.2) (by decide)
  exact Bool.and_eq_false_iff.mpr (.inl (decide_eq_false below))

theorem isNoWord_integer (n : Int) : IsNoWord (toString n) := by
  cases n with
  | ofNat n => exact isNoWord_natural n
  | negSucc n => exact IsNoWord.left ⟨'-', by decide, by decide⟩ _

theorem isNoWord_date (d : Date) : IsNoWord d.text := by
  rw [Date.text]
  exact ((IsNoWord.right ⟨'-', by decide, by decide⟩ _).left _).left _ |>.left _

theorem mem_positional (digits : List Char) (lead : Int) :
    '.' ∈ Binary64.positional digits lead := by
  rw [Binary64.positional]
  dsimp only
  split
  · simp
  · split <;> simp

theorem mem_scientific (digits : List Char) (lead : Int) :
    (if lead < 0 then '-' else '+') ∈ Binary64.scientific digits lead := by
  rw [Binary64.scientific]
  exact List.mem_append_right _ (List.mem_cons_of_mem _ List.mem_cons_self)

/-- The text of a float holds a point or the sign of its exponent, if it is not undefined or
infinite. -/
theorem isNoWord_float (negative : Bool) (m : Nat) (e : Int) :
    IsNoWord (Binary64.finite negative m e).text := by
  have sign (lead : Int) : (if lead < 0 then '-' else '+').isLower = false := by
    split <;> decide
  have body (digits : List Char) (lead : Int) : ∃ c ∈ (if -4 ≤ lead ∧ lead < 16 then
      Binary64.positional digits lead else Binary64.scientific digits lead), c.isLower = false := by
    split
    · exact ⟨'.', mem_positional digits lead, by decide⟩
    · exact ⟨_, mem_scientific digits lead, sign lead⟩
  rw [Binary64.text]
  dsimp only
  split
  · exact .ofList (c := '.') (by simp) (by decide)
  · obtain ⟨c, mem, other⟩ := body _ _
    exact .ofList (List.mem_append_right _ mem) other

theorem isNoWord_bytes (bytes : List UInt8) : IsNoWord (Text.quotedBytes bytes) := by
  have quote (text : List Char) : (Text.preferredQuote text).isLower = false := by
    rw [Text.preferredQuote]
    split <;> decide
  exact .ofList (List.mem_append_left _ (List.mem_cons_of_mem _ List.mem_cons_self)) (quote _)

theorem isNoWord_token (t : TypeToken) : IsNoWord t.written := by
  have bracket : IsNoWord "<class '" := ⟨'<', by decide, by decide⟩
  cases t with
  | callable | callableInterface | date | moment => exact ⟨'<', by decide, by decide⟩
  | _ => exact (bracket.left _).left _

theorem isNoWord_pattern (p : Pattern) : IsNoWord p.written := by
  have bracket : IsNoWord "re.compile(" := ⟨'(', by decide, by decide⟩
  rw [Pattern.written]
  exact ((bracket.left _).left _).left _

theorem isNoWord_schema (id : Nat) (s : Schema) : IsNoWord (Value.schema id s).written := by
  have bracket : IsNoWord "CompiledSchema([" := ⟨'(', by decide, by decide⟩
  obtain ⟨rules, flex⟩ := s
  exact (((bracket.left _).left _).left _).left _

theorem isNoWord_validator (id : Nat) (s : Schema) : IsNoWord (Value.validator id s).written := by
  have bracket : IsNoWord "Schemy(CompiledSchema([" := ⟨'(', by decide, by decide⟩
  obtain ⟨rules, flex⟩ := s
  exact (((bracket.left _).left _).left _).left _

/-- Only texts, and two numbers, are shown as words. -/
theorem Value.shown_noWord (v : Value) (noText : ∀ s, v ≠ .text s) :
    v.shown = "nan" ∨ v.shown = "inf" ∨ IsNoWord v.shown := by
  have noWord {s : String} (holds : IsNoWord s) : s = "nan" ∨ s = "inf" ∨ IsNoWord s :=
    .inr (.inr holds)
  -- Most values begin with a bracket, or with a name and a bracket.
  have opened (first : String) (c : Char) (mem : c ∈ first.toList) (other : c.isLower = false)
      (inside last : String) : IsNoWord (first ++ inside ++ last) :=
    (IsNoWord.left ⟨c, mem, other⟩ inside).left last
  cases v with
  | text s => exact (noText s rfl).elim
  | null => exact noWord ⟨'N', by decide, by decide⟩
  | bool b =>
      cases b
      · exact noWord ⟨'F', by decide, by decide⟩
      · exact noWord ⟨'T', by decide, by decide⟩
  | int n => exact noWord (isNoWord_integer n)
  | float x =>
      cases x with
      | nan => exact .inl rfl
      | infinity negative =>
          cases negative
          · exact .inr (.inl rfl)
          · exact noWord ⟨'-', by decide, by decide⟩
      | finite negative m e => exact noWord (isNoWord_float negative m e)
  | bytes bytes => exact noWord (isNoWord_bytes bytes)
  | date d => exact noWord (isNoWord_date d)
  | moment m => exact noWord ((((isNoWord_date m.date).left " ").left m.time.text).left _)
  | list items => exact noWord (opened "[" '[' (by decide) (by decide) _ _)
  | tuple items =>
      match items with
      | [] | [_] | _ :: _ :: _ =>
          exact noWord (opened "(" '(' (by decide) (by decide) _ _)
  | set members =>
      cases members with
      | nil => exact noWord ⟨'(', by decide, by decide⟩
      | cons _ _ => exact noWord (opened "\x7b" '\x7b' (by decide) (by decide) _ _)
  | object entries =>
      exact noWord (opened "\x7b" '\x7b' (by decide) (by decide) _ _)
  | frozen entries =>
      exact noWord (opened "mappingproxy(\x7b" '(' (by decide) (by decide) _ _)
  | callable f =>
      cases f with
      | token t => exact noWord (isNoWord_token t)
      | function id b =>
          exact noWord (opened "<function " '<' (by decide) (by decide) _ _)
  | pattern p => exact noWord (isNoWord_pattern p)
  | thing id className =>
      exact noWord (opened "<" '<' (by decide) (by decide) _ _)
  | schema id s => exact noWord (isNoWord_schema id s)
  | validator id s => exact noWord (isNoWord_validator id s)
  | rule _ => exact noWord (s := "<PropertyRule object>") ⟨'<', by decide, by decide⟩
  | plugin _ _ => exact noWord (s := "<Plugin object>") ⟨'<', by decide, by decide⟩
  | shared _ => exact noWord (s := "<shared object>") ⟨'<', by decide, by decide⟩

/-- A word other than the names of two numbers is shown by its text alone. -/
theorem Value.eq_text_of_shown {v : Value} {word : String}
    (lower : word.toList.all Char.isLower = true) (notNan : word ≠ "nan") (notInf : word ≠ "inf")
    (same : v.shown = word) : v = .text word := by
  by_cases isText : ∃ s, v = .text s
  · obtain ⟨s, rfl⟩ := isText
    exact congrArg _ same
  · rcases v.shown_noWord (not_exists.mp isText) with nan | inf | ⟨c, mem, other⟩
    · exact (notNan (same.symm.trans nan)).elim
    · exact (notInf (same.symm.trans inf)).elim
    · rw [same] at mem
      rw [List.all_eq_true.mp lower c mem] at other
      cases other

end DataContract
