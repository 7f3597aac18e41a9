/-
# Decimal numerals

A natural number is written with the least number of decimal digits. Here the digits
are tied to the readers of numerals: what they write is the number again, their count
bounds it from both sides, and a numeral of too many digits is refused whatever it
writes.
-/

import DataContract.Text.Integer
import Mathlib.Tactic.Common
import Mathlib.Tactic.Ring

set_option autoImplicit false

namespace DataContract.Text

/-- Whether a text is made of ASCII digits. -/
def IsDigits (cs : List Char) : Prop := ∀ c ∈ cs, isAsciiDigit c = true

theorem toList_toString (n : Nat) : (toString n).toList = Nat.toDigits 10 n := by
  rw [Nat.toString_eq_ofList_toDigits, String.toList_ofList]

theorem length_toString (n : Nat) : (toString n).length = (Nat.toDigits 10 n).length := by
  rw [← String.length_toList, toList_toString]

theorem isAsciiDigit_iff {c : Char} : isAsciiDigit c = true ↔ 48 ≤ c.toNat ∧ c.toNat ≤ 57 := by
  rw [isAsciiDigit, Bool.and_eq_true, decide_eq_true_iff, decide_eq_true_iff]
  exact Iff.rfl

/-- A digit differs from every character that is none. -/
theorem ne_of_isAsciiDigit {c d : Char} (digit : isAsciiDigit c = true)
    (other : isAsciiDigit d = false) : c ≠ d := by
  rintro rfl
  rw [digit] at other
  cases other

theorem IsDigits.append {front back : List Char} (hf : IsDigits front) (hb : IsDigits back) :
    IsDigits (front ++ back) :=
  fun c mem => (List.mem_append.1 mem).elim (hf c) (hb c)

theorem isDigits_zeros (count : Nat) : IsDigits (List.replicate count '0') := fun c mem => by
  rw [List.eq_of_mem_replicate mem]
  rfl

/-! ### What digits write -/

theorem asciiNat_eq_ofDigitChars (cs : List Char) : asciiNat cs = Nat.ofDigitChars 10 cs 0 := by
  rw [asciiNat, Nat.ofDigitChars_eq_foldl]
  congr 1
  funext total c
  rw [Nat.mul_comm]

theorem asciiNat_append (front back : List Char) :
    asciiNat (front ++ back) = asciiNat front * 10 ^ back.length + asciiNat back := by
  rw [asciiNat_eq_ofDigitChars, Nat.ofDigitChars_append, Nat.ofDigitChars_eq_ofDigitChars_zero,
    ← asciiNat_eq_ofDigitChars, ← asciiNat_eq_ofDigitChars, Nat.mul_comm]

theorem asciiNat_zeros (count : Nat) : asciiNat (List.replicate count '0') = 0 := by
  rw [asciiNat_eq_ofDigitChars, Nat.ofDigitChars_replicate_zero, Nat.mul_zero]

/-- Zeros in front of a numeral do not count. -/
theorem asciiNat_zeros_append (count : Nat) (cs : List Char) :
    asciiNat (List.replicate count '0' ++ cs) = asciiNat cs := by
  rw [asciiNat_append, asciiNat_zeros, Nat.zero_mul, Nat.zero_add]

/-- Zeros behind a numeral multiply by powers of ten. -/
theorem asciiNat_append_zeros (cs : List Char) (count : Nat) :
    asciiNat (cs ++ List.replicate count '0') = asciiNat cs * 10 ^ count := by
  rw [asciiNat_append, asciiNat_zeros, Nat.add_zero, List.length_replicate]

theorem asciiNat_lt {cs : List Char} (digits : IsDigits cs) : asciiNat cs < 10 ^ cs.length := by
  induction cs with
  | nil => decide
  | cons c rest ih =>
      obtain ⟨low, high⟩ := isAsciiDigit_iff.1 (digits c List.mem_cons_self)
      have tail := ih fun d mem => digits d (List.mem_cons_of_mem _ mem)
      have head : asciiNat [c] = c.toNat - 48 := by simp [asciiNat]
      have split : asciiNat (c :: rest) = (c.toNat - 48) * 10 ^ rest.length + asciiNat rest := by
        rw [← head, ← asciiNat_append, List.singleton_append]
      have bound : (c.toNat - 48) * 10 ^ rest.length ≤ 9 * 10 ^ rest.length :=
        Nat.mul_le_mul_right _ (by omega)
      rw [split, List.length_cons, Nat.pow_succ]
      omega

/-! ### The digits of a number -/

theorem isDigits_toDigits (n : Nat) : IsDigits (Nat.toDigits 10 n) := fun c mem => by
  have digit := Nat.isDigit_of_mem_toDigits (by decide) (by decide) mem
  rw [Char.isDigit, Bool.and_eq_true, decide_eq_true_iff, decide_eq_true_iff] at digit
  exact isAsciiDigit_iff.2 digit

theorem asciiNat_toDigits (n : Nat) : asciiNat (Nat.toDigits 10 n) = n := by
  rw [asciiNat_eq_ofDigitChars, Nat.ofDigitChars_ten_toDigits]

theorem lt_pow_length_toDigits (n : Nat) : n < 10 ^ (Nat.toDigits 10 n).length :=
  (Nat.length_toDigits_le_iff (by decide) Nat.length_toDigits_pos).1 le_rfl

theorem pow_length_toDigits_le {n : Nat} (positive : 0 < n) :
    10 ^ ((Nat.toDigits 10 n).length - 1) ≤ n := by
  rcases Nat.lt_or_ge 1 (Nat.toDigits 10 n).length with more | single
  · by_contra less
    have fits : (Nat.toDigits 10 n).length ≤ (Nat.toDigits 10 n).length - 1 :=
      (Nat.length_toDigits_le_iff (by decide) (by omega)).2 (by omega)
    omega
  · rw [Nat.sub_eq_zero_of_le single]
    exact positive

/-- Only zero is written with a leading zero. -/
theorem head_toDigits_ne_zero {n : Nat} (positive : 0 < n) {c : Char} {rest : List Char}
    (shape : Nat.toDigits 10 n = c :: rest) : c ≠ '0' := by
  rintro rfl
  have least := pow_length_toDigits_le positive
  have tail : IsDigits rest := fun d mem =>
    isDigits_toDigits n d (shape ▸ List.mem_cons_of_mem _ mem)
  have value : asciiNat rest = n := by
    rw [← asciiNat_toDigits n, shape]
    exact (asciiNat_zeros_append 1 rest).symm
  have less := asciiNat_lt tail
  rw [shape, List.length_cons, Nat.add_sub_cancel] at least
  omega

/-! ### Reading digits -/

theorem digitValue?_of_isAsciiDigit {c : Char} (digit : isAsciiDigit c = true) :
    digitValue? c = some (c.toNat - 48) := by
  obtain ⟨low, high⟩ := isAsciiDigit_iff.1 digit
  have first : zeroDigits.find? (fun first => decide (first ≤ c.toNat) &&
      decide (c.toNat ≤ first + 9)) = some 48 := by
    rw [zeroDigits, List.find?_cons_of_pos]
    simp [low, high]
  rw [digitValue?, first]
  rfl

theorem readMoreDigits_of_isDigits {cs : List Char} (digits : IsDigits cs) (total : Nat) :
    readMoreDigits cs total =
      some (cs.foldl (fun total c => total * 10 + (c.toNat - '0'.toNat)) total) := by
  induction cs generalizing total with
  | nil => rfl
  | cons c rest ih =>
      have digit := digits c List.mem_cons_self
      have plain : c ≠ '_' := ne_of_isAsciiDigit digit (by decide)
      rw [readMoreDigits.eq_3 _ _ _ (fun _ _ low _ => plain low), digitValue?_of_isAsciiDigit digit]
      exact ih (fun d mem => digits d (List.mem_cons_of_mem _ mem)) _

theorem filter_isDigits {cs : List Char} (digits : IsDigits cs) : cs.filter (· != '_') = cs :=
  List.filter_eq_self.2 fun c mem => bne_iff_ne.2 (ne_of_isAsciiDigit (digits c mem) (by decide))

/-- Digits are read as the number that they write, up to the greatest count of digits. -/
theorem readNatural?_of_isDigits {cs : List Char} (digits : IsDigits cs) (nonempty : cs ≠ []) :
    readNatural? cs = if greatestDigitCount < cs.length then none else some (asciiNat cs) := by
  cases cs with
  | nil => exact absurd rfl nonempty
  | cons c rest =>
      rw [readNatural?, filter_isDigits digits,
        digitValue?_of_isAsciiDigit (digits c List.mem_cons_self)]
      split
      · rfl
      · change readMoreDigits rest (c.toNat - 48) = _
        rw [readMoreDigits_of_isDigits fun d mem => digits d (List.mem_cons_of_mem _ mem),
          asciiNat, List.foldl_cons, Nat.zero_mul, Nat.zero_add]
        rfl

theorem readInteger?_of_isDigits {cs : List Char} (digits : IsDigits cs) (nonempty : cs ≠ []) :
    readInteger? cs =
      if greatestDigitCount < cs.length then none else some (asciiNat cs : Int) := by
  have unsigned : readInteger? cs = (readNatural? cs).map Int.ofNat := by
    cases cs with
    | nil => exact absurd rfl nonempty
    | cons c rest =>
        have digit := digits c List.mem_cons_self
        exact readInteger?.eq_3 _ (fun _ shape => ne_of_isAsciiDigit digit (d := '-') (by decide)
          (List.cons.inj shape).1) (fun _ shape => ne_of_isAsciiDigit digit (d := '+') (by decide)
          (List.cons.inj shape).1)
  rw [unsigned, readNatural?_of_isDigits digits nonempty]
  split <;> rfl

/-! ### The size of what is read -/

theorem digitValue?_le {c : Char} {digit : Nat} (own : digitValue? c = some digit) : digit ≤ 9 := by
  obtain ⟨first, found, rfl⟩ := Option.map_eq_some_iff.mp own
  have within := List.find?_some found
  simp only [Bool.and_eq_true, decide_eq_true_eq] at within
  omega

theorem countP_isDigit_cons {c : Char} {digit : Nat} (own : digitValue? c = some digit)
    (rest : List Char) : (c :: rest).countP isDigit = rest.countP isDigit + 1 :=
  List.countP_cons_of_pos (by rw [isDigit, own]; rfl)

/-- One more digit is one more power of ten. -/
theorem lt_of_one_more_digit {n total digit count : Nat} (small : digit ≤ 9)
    (later : n < (total * 10 + digit + 1) * 10 ^ count) : n < (total + 1) * 10 ^ (count + 1) := by
  have tens : total * 10 + digit + 1 ≤ (total + 1) * 10 := by omega
  calc n < (total * 10 + digit + 1) * 10 ^ count := later
    _ ≤ (total + 1) * 10 * 10 ^ count := Nat.mul_le_mul_right _ tens
    _ = (total + 1) * 10 ^ (count + 1) := by rw [Nat.pow_succ', Nat.mul_assoc]

theorem readMoreDigits_lt {cs : List Char} {total n : Nat}
    (read : readMoreDigits cs total = some n) : n < (total + 1) * 10 ^ cs.countP isDigit := by
  fun_induction readMoreDigits cs total with
  | case1 total =>
      cases read
      simp
  | case2 c rest total ih =>
      obtain ⟨digit, own, later⟩ := Option.bind_eq_some_iff.mp read
      rw [List.countP_cons_of_neg (by decide), countP_isDigit_cons own]
      exact lt_of_one_more_digit (digitValue?_le own) (ih digit later)
  | case3 c rest total _ ih =>
      obtain ⟨digit, own, later⟩ := Option.bind_eq_some_iff.mp read
      rw [countP_isDigit_cons own]
      exact lt_of_one_more_digit (digitValue?_le own) (ih digit later)

theorem readNatural?_lt {cs : List Char} {n : Nat} (read : readNatural? cs = some n) :
    n < 10 ^ cs.countP isDigit := by
  cases cs with
  | nil => cases read
  | cons c rest =>
      rw [readNatural?] at read
      split at read
      · cases read
      · obtain ⟨digit, own, later⟩ := Option.bind_eq_some_iff.mp read
        have more : n < (0 * 10 + digit + 1) * 10 ^ rest.countP isDigit := by
          simpa using readMoreDigits_lt later
        rw [countP_isDigit_cons own]
        simpa using lt_of_one_more_digit (digitValue?_le own) more

/-- A numeral is less than ten to the number of its digits, whatever signs and low lines stand
between them. -/
theorem natAbs_readInteger?_lt {cs : List Char} {n : Int} (read : readInteger? cs = some n) :
    n.natAbs < 10 ^ cs.countP isDigit := by
  rw [readInteger?.eq_def] at read
  split at read <;> obtain ⟨size, own, rfl⟩ := Option.map_eq_some_iff.mp read
  · obtain ⟨count, unsigned, same⟩ := Option.bind_eq_some_iff.mp own
    cases same
    rw [List.countP_cons_of_neg (by decide), Int.natAbs_neg]
    exact readNatural?_lt unsigned
  · rw [List.countP_cons_of_neg (by decide)]
    exact readNatural?_lt own
  · exact readNatural?_lt own

end DataContract.Text
