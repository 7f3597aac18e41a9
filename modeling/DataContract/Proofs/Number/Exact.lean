/-
# The exact value of a number

Comparing numbers aligns their mantissas at the lesser exponent. Here the outcome is
tied to the rational number that a mantissa and an exponent stand for, so equality
of numbers is equality of what they stand for, and the undefined number stands for
nothing.
-/

import DataContract.Number.Basic
import Mathlib.Algebra.Order.Field.Power
import Mathlib.Data.Rat.Cast.Order

set_option autoImplicit false

namespace DataContract

/-- What a number other than the undefined one stands for. -/
inductive Exact where
  | negInfinity
  | finite (q : ℚ)
  | posInfinity

namespace Extended

/-- The rational number `n · 2 ^ e`. -/
def rational (n e : Int) : ℚ := n * 2 ^ e

/-- The exact value, which the undefined number lacks. -/
def denoted? : Extended → Option Exact
  | .undefined => none
  | .negInfinity => some .negInfinity
  | .dyadic n e => some (.finite (rational n e))
  | .posInfinity => some .posInfinity

theorem cast_twoPow (k : Nat) : ((twoPow k : Nat) : ℚ) = 2 ^ k := by
  have power : twoPow k = 2 ^ k := rfl
  rw [power, Nat.cast_pow, Nat.cast_ofNat]

/-- Scaling a mantissa down to a lesser exponent keeps the rational number. -/
theorem rational_of_le {e least : Int} (n : Int) (lower : least ≤ e) :
    rational n e = ((n * twoPow (e - least).toNat : Int) : ℚ) * 2 ^ least := by
  have gap : ((e - least).toNat : Int) = e - least := Int.toNat_of_nonneg (by omega)
  have split : (2 : ℚ) ^ e = 2 ^ (e - least).toNat * 2 ^ least := by
    rw [← zpow_natCast, gap, ← zpow_add₀ two_ne_zero, Int.sub_add_cancel]
  rw [rational, split, Int.cast_mul, Int.cast_natCast, cast_twoPow, mul_assoc]

/-- Aligned mantissas are equal exactly if the rational numbers are. -/
theorem align_eq_iff (n₁ e₁ n₂ e₂ : Int) :
    (align n₁ e₁ n₂ e₂).1 = (align n₁ e₁ n₂ e₂).2 ↔ rational n₁ e₁ = rational n₂ e₂ := by
  rw [rational_of_le n₁ (min_le_left e₁ e₂), rational_of_le n₂ (min_le_right e₁ e₂)]
  have positive : (2 : ℚ) ^ min e₁ e₂ ≠ 0 := zpow_ne_zero _ two_ne_zero
  rw [mul_left_inj' positive, Int.cast_inj]
  rfl

/-- Two numbers are equal exactly if they stand for the same, and for something. -/
theorem eq_iff_denoted? (a b : Extended) :
    a.eq b = true ↔ a.denoted? = b.denoted? ∧ b.denoted?.isSome = true := by
  cases a <;> cases b <;> simp [eq, denoted?, align_eq_iff]

end Extended

end DataContract
