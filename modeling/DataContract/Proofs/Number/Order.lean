/-
# The order of numbers

Every number but the undefined one is a point on the extended real line: integers of
any size and finite floating-point numbers exactly, infinities at its ends. Comparing
two numbers is comparing their points, whichever sorts they are of, and a number
without a point is below nothing and above nothing. So "not above" says less than
"at most": the two agree for numbers that both have a point, and only for those.
-/

import DataContract.Proofs.Number.Exact
import Mathlib.Data.EReal.Basic

set_option autoImplicit false

namespace DataContract

/-- The point on the extended real line. -/
noncomputable def Exact.toEReal : Exact → EReal
  | .negInfinity => ⊥
  | .finite q => ((q : ℝ) : EReal)
  | .posInfinity => ⊤

namespace Extended

/-- Aligned mantissas are ordered as the rational numbers are. -/
theorem align_lt_iff (n₁ e₁ n₂ e₂ : Int) :
    (align n₁ e₁ n₂ e₂).1 < (align n₁ e₁ n₂ e₂).2 ↔ rational n₁ e₁ < rational n₂ e₂ := by
  rw [rational_of_le n₁ (min_le_left e₁ e₂), rational_of_le n₂ (min_le_right e₁ e₂)]
  have positive : (0 : ℚ) < 2 ^ min e₁ e₂ := zpow_pos two_pos _
  rw [mul_lt_mul_iff_left₀ positive, Int.cast_lt]
  rfl

/-- One number is less than another exactly if both stand for something, and their
points lie so. -/
theorem lt_iff_denoted? (a b : Extended) :
    a.lt b = true ↔
      ∃ x y, a.denoted? = some x ∧ b.denoted? = some y ∧ x.toEReal < y.toEReal := by
  cases a <;> cases b <;> simp [lt, denoted?, Exact.toEReal, align_lt_iff]

end Extended

namespace Number

/-- The point of a number on the extended real line, which the undefined number lacks. -/
noncomputable def point? (n : Number) : Option EReal := n.extended.denoted?.map Exact.toEReal

/-- An integer is its own point, however large. -/
theorem point?_int (n : Int) : (Number.int n).point? = some ((n : ℝ) : EReal) := by
  simp [point?, extended, Extended.denoted?, Extended.rational, Exact.toEReal]

/-- A finite floating-point number is its mantissa scaled by its power of two. -/
theorem point?_finite (negative : Bool) (m : Nat) (e : Int) :
    (Number.float (.finite negative m e)).point? =
      some (((if negative then -(m : ℝ) else m) * 2 ^ e : ℝ) : EReal) := by
  cases negative <;>
    simp [point?, extended, Binary64.extended, Extended.denoted?, Extended.rational,
      Exact.toEReal]

theorem point?_infinity (negative : Bool) :
    (Number.float (.infinity negative)).point? = some (if negative then ⊥ else ⊤) := by
  cases negative <;> rfl

theorem point?_nan : (Number.float .nan).point? = none := rfl

/-- Both numbers have a point, so one of them is at most the other. -/
def Comparable (a b : Number) : Prop := a.point?.isSome ∧ b.point?.isSome

/-- One number is at most another: both have a point, and the points lie so. -/
def AtMost (a b : Number) : Prop :=
  ∃ x y, a.point? = some x ∧ b.point? = some y ∧ x ≤ y

theorem AtMost.comparable {a b : Number} (le : a.AtMost b) : a.Comparable b := by
  obtain ⟨x, y, left, right, -⟩ := le
  exact ⟨by simp [left], by simp [right]⟩

theorem Comparable.symm {a b : Number} (both : a.Comparable b) : b.Comparable a :=
  And.symm both

/-- One number is less than another exactly if both have a point, and the points lie
so. -/
theorem lt_iff (a b : Number) :
    a.lt b = true ↔ ∃ x y, a.point? = some x ∧ b.point? = some y ∧ x < y := by
  simp only [lt, Extended.lt_iff_denoted?, point?, Option.map_eq_some_iff]
  constructor
  · rintro ⟨x, y, left, right, less⟩
    exact ⟨_, _, ⟨x, left, rfl⟩, ⟨y, right, rfl⟩, less⟩
  · rintro ⟨_, _, ⟨x, left, rfl⟩, ⟨y, right, rfl⟩, less⟩
    exact ⟨x, y, left, right, less⟩

/-- What is not less is at least as much, as far as the two can be compared. -/
theorem lt_eq_false_iff (a b : Number) :
    a.lt b = false ↔ (a.Comparable b → b.AtMost a) := by
  rw [← Bool.not_eq_true, lt_iff]
  constructor
  · rintro notLess ⟨hasLeft, hasRight⟩
    obtain ⟨x, left⟩ := Option.isSome_iff_exists.mp hasLeft
    obtain ⟨y, right⟩ := Option.isSome_iff_exists.mp hasRight
    have le : y ≤ x := not_lt.mp fun less => notLess ⟨x, y, left, right, less⟩
    exact ⟨y, x, right, left, le⟩
  · rintro atLeast ⟨x, y, left, right, less⟩
    obtain ⟨y', x', right', left', le⟩ := atLeast ⟨by simp [left], by simp [right]⟩
    rw [right, Option.some_inj] at right'
    rw [left, Option.some_inj] at left'
    subst right' left'
    exact absurd less (not_lt.mpr le)

end Number

end DataContract
