/-
# Sums and products of floating-point numbers

The exact sum or product is rounded once. Only numbers without a sign are needed
here: they are the parts of numerals with more than one base.
-/

import DataContract.Number.Binary64

set_option autoImplicit false

namespace DataContract.Binary64

/-- The number nearest to `n · 2 ^ e`. -/
def ofScaled (n : Nat) (e : Int) : Binary64 :=
  let (num, den) := scaleByPowerOfTwo n e
  round false num den

/-- The sum of two numbers that are not negative. -/
def addMagnitudes : Binary64 → Binary64 → Binary64
  | .finite _ m₁ e₁, .finite _ m₂ e₂ =>
    let e := min e₁ e₂
    ofScaled (m₁ * twoPow (e₁ - e).toNat + m₂ * twoPow (e₂ - e).toNat) e
  | .nan, _ | _, .nan => .nan
  | _, _ => .infinity false

/-- The product of a number that is not negative and a positive integer. -/
def scaleMagnitude (x : Binary64) (n : Nat) : Binary64 :=
  match x, round false n 1 with
  | .finite _ m₁ e₁, .finite _ m₂ e₂ => ofScaled (m₁ * m₂) (e₁ + e₂)
  | x, _ => x

/-- Changes the sign of a number. -/
def negate : Binary64 → Binary64
  | .nan => .nan
  | .infinity negative => .infinity !negative
  | .finite negative m e => .finite (!negative) m e

end DataContract.Binary64
