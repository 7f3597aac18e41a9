/-
# Hexadecimal numerals

The last hexadecimal digits of a number, in a given count, write the number up to that power of
sixteen. In the other direction digits of either case are the lower-case digits of what they write,
up to their case.
-/

import DataContract.Text.Digit
import DataContract.Text.Quoted
import Mathlib.Data.List.Induction
import Mathlib.Tactic.Ring

set_option autoImplicit false

namespace DataContract.Text

/-! ### Single digits -/

/-- A digit of either case has a value, and in lower case it is the digit of its value. -/
theorem hexDigit_of_hexValue? {c : Char} {v : Nat} (own : hexValue? c = some v) :
    v < 16 ∧ hexDigit v = c.toLower := by
  have codes : ∀ code < 128, ∀ v ∈ hexValue? (Char.ofNat code),
      v < 16 ∧ hexDigit v = (Char.ofNat code).toLower := by decide
  have ascii : c.toNat < 128 := by
    have inRange {low high : Char} (small : high.toNat < 128)
        (within : (low ≤ c && c ≤ high) = true) : c.toNat < 128 :=
      Nat.lt_of_le_of_lt (of_decide_eq_true (Bool.and_eq_true_iff.mp within).2) small
    rw [hexValue?] at own
    split at own
    next digit => exact inRange (by decide) digit
    next =>
      split at own
      next lower => exact inRange (by decide) lower
      next =>
        split at own
        next upper => exact inRange (by decide) upper
        next => cases own
  rw [← Char.ofNat_toNat c] at own ⊢
  exact codes c.toNat ascii v own

theorem hexValue?_hexDigit {v : Nat} (small : v < 16) : hexValue? (hexDigit v) = some v := by
  have values : ∀ v < 16, hexValue? (hexDigit v) = some v := by decide
  exact values v small

/-! ### Digits and numbers -/

theorem length_hexDigits (width n : Nat) : (hexDigits width n).length = width := by
  induction width generalizing n with
  | zero => rfl
  | succ width ih => simp [hexDigits, ih]

theorem hexDigits_append (front back n : Nat) :
    hexDigits (front + back) n = hexDigits front (n / 16 ^ back) ++ hexDigits back n := by
  induction back generalizing n with
  | zero => simp [hexDigits]
  | succ back ih =>
      rw [← Nat.add_assoc, hexDigits, ih, hexDigits, Nat.div_div_eq_div_mul, ← Nat.pow_succ',
        List.append_assoc]

theorem hexDigits_cons (width n : Nat) :
    hexDigits (1 + width) n = hexDigit (n / 16 ^ width % 16) :: hexDigits width n :=
  hexDigits_append 1 width n

theorem exists_of_mem_hexDigits {width n : Nat} {c : Char} (mem : c ∈ hexDigits width n) :
    ∃ v < 16, c = hexDigit v := by
  induction width generalizing n with
  | zero => cases mem
  | succ width ih =>
      rcases List.mem_append.mp mem with mem | mem
      · exact ih mem
      · exact ⟨n % 16, Nat.mod_lt _ (by decide), List.mem_singleton.mp mem⟩

theorem numberIn_concat (base : Nat) (digits : List Char) (c : Char) :
    numberIn base (digits ++ [c]) = numberIn base digits * base + (hexValue? c).getD 0 := by
  simp [numberIn]

/-- The last digits of a number write its remainder. -/
theorem numberIn_hexDigits (width n : Nat) : numberIn 16 (hexDigits width n) = n % 16 ^ width := by
  induction width generalizing n with
  | zero => simp [hexDigits, numberIn, Nat.mod_one]
  | succ width ih =>
      rw [hexDigits, numberIn_concat, ih, hexValue?_hexDigit (Nat.mod_lt _ (by decide)),
        Nat.pow_succ', Nat.mod_mul, Option.getD_some]
      omega

/-- A number is determined by enough of its last digits. -/
theorem hexDigits_inj {width m n : Nat} (hm : m < 16 ^ width) (hn : n < 16 ^ width)
    (same : hexDigits width m = hexDigits width n) : m = n := by
  rw [← Nat.mod_eq_of_lt hm, ← Nat.mod_eq_of_lt hn, ← numberIn_hexDigits, same, numberIn_hexDigits]

/-- Digits of either case write a number with as many digits, which is no greater than they allow
and has them in lower case. -/
theorem hexDigits_numberIn {digits : List Char} (hex : ∀ c ∈ digits, (hexValue? c).isSome = true) :
    numberIn 16 digits < 16 ^ digits.length ∧
      hexDigits digits.length (numberIn 16 digits) = digits.map Char.toLower := by
  induction digits using List.reverseRecOn with
  | nil => exact ⟨by decide, rfl⟩
  | append_singleton front c ih =>
      obtain ⟨v, own⟩ := Option.isSome_iff_exists.mp (hex c (by simp))
      obtain ⟨small, digit⟩ := hexDigit_of_hexValue? own
      obtain ⟨less, written⟩ := ih fun c mem => hex c (List.mem_append_left _ mem)
      have quotient : (numberIn 16 front * 16 + v) / 16 = numberIn 16 front := by omega
      have remainder : (numberIn 16 front * 16 + v) % 16 = v := by omega
      rw [numberIn_concat, own, Option.getD_some, List.length_append, List.length_singleton]
      refine ⟨by rw [Nat.pow_succ]; omega, ?_⟩
      rw [hexDigits, quotient, remainder, written, digit, List.map_append, List.map_singleton]

end DataContract.Text
