/-
# Binary floating-point numbers, exactly

A `Binary64` is a sign, a natural mantissa and a power of two, or one of the
values that are not finite. Rounding is done on exact quotients of natural
numbers, to the nearest representable value and to the even mantissa on a tie,
so nothing here depends on the arithmetic of a machine.
-/

import DataContract.Number.Power

set_option autoImplicit false

namespace DataContract

/-- A double-precision number. `finite negative m e` stands for `± m · 2 ^ e`;
the numbers built by `Binary64.round` are normalised: the mantissa fills 53 bits
unless the exponent is the least one, and zero has exponent zero. -/
inductive Binary64 where
  | nan
  | infinity (negative : Bool)
  | finite (negative : Bool) (mantissa : Nat) (exponent : Int)
deriving DecidableEq, Inhabited

namespace Binary64

/-- The exponent of the smallest positive number. -/
def leastExponent : Int := -1074

/-- The exponent of the largest finite numbers. -/
def greatestExponent : Int := 971

/-- Zero without a sign. -/
def zero : Binary64 := .finite false 0 0

/-- `n · 2 ^ e` as a quotient of natural numbers. -/
def scaleByPowerOfTwo (n : Nat) (e : Int) : Nat × Nat :=
  if 0 ≤ e then (n * twoPow e.toNat, 1) else (n, twoPow (-e).toNat)

/-- The natural number nearest to a quotient; a half goes to the even neighbour. -/
def roundQuotient (num den : Nat) : Nat :=
  let q := num / den
  let twice := 2 * (num % den)
  if twice < den then q else if den < twice then q + 1 else q + q % 2

/-- The exponent at which a positive quotient has a mantissa of 53 bits, or the
least exponent where that is greater. -/
def mantissaExponent (num den : Nat) : Int :=
  let rough : Int := max ((num.log2 : Int) - den.log2 - 53) leastExponent
  let (n, d) :=
    if 0 ≤ rough then (num, den * twoPow rough.toNat) else (num * twoPow (-rough).toNat, den)
  if n / d < twoPow 53 then rough else rough + 1

/-- The number nearest to `± num / den`; a tie goes to the even mantissa, and
what lies beyond the greatest number becomes infinite. -/
def round (negative : Bool) (num den : Nat) : Binary64 :=
  if num = 0 then .finite negative 0 0
  else
    let e := mantissaExponent num den
    let (n, d) := if 0 ≤ e then (num, den * twoPow e.toNat) else (num * twoPow (-e).toNat, den)
    let m := roundQuotient n d
    let (m, e) := if m = twoPow 53 then (twoPow 52, e + 1) else (m, e)
    if m = 0 then .finite negative 0 0
    else if greatestExponent < e then .infinity negative
    else .finite negative m e

/-- The number nearest to `± digits · 10 ^ exponent`. Exponents far outside the
range of the format are decided without computing the power. -/
def ofDecimal (negative : Bool) (digits : Nat) (exponent : Int) : Binary64 :=
  let magnitude : Int := (toString digits).length + exponent
  if digits = 0 ∨ magnitude < -400 then .finite negative 0 0
  else if 400 < magnitude then .infinity negative
  else if 0 ≤ exponent then round negative (digits * tenPow exponent.toNat) 1
  else round negative digits (tenPow (-exponent).toNat)

/-- Whether a number is neither infinite nor the undefined one. -/
def isFinite : Binary64 → Bool
  | .finite .. => true
  | _ => false

/-- Whether a number is a zero of either sign. -/
def isZero : Binary64 → Bool
  | .finite _ 0 _ => true
  | _ => false

end Binary64

end DataContract
