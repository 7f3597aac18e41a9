/-
# Numbers

A number is an integer of any size or a floating-point number. Numbers of both
sorts are compared by their exact values: `Extended` holds a value as an integer
times a power of two, so nothing is rounded. The undefined number is below,
equal to and above nothing.
-/

import DataContract.Number.Decimal

set_option autoImplicit false

namespace DataContract

/-- The exact value of a number: `dyadic n e` is `n · 2 ^ e`. -/
inductive Extended where
  | undefined
  | negInfinity
  | dyadic (n : Int) (e : Int)
  | posInfinity
deriving DecidableEq

namespace Extended

/-- The two integers that stand for two dyadic values at their common, lesser
exponent. -/
def align (n₁ e₁ n₂ e₂ : Int) : Int × Int :=
  let e := min e₁ e₂
  (n₁ * twoPow (e₁ - e).toNat, n₂ * twoPow (e₂ - e).toNat)

/-- The strict order of exact values. -/
def lt : Extended → Extended → Bool
  | .undefined, _ | _, .undefined => false
  | .negInfinity, .negInfinity => false
  | .negInfinity, _ => true
  | _, .negInfinity => false
  | .posInfinity, _ => false
  | .dyadic .., .posInfinity => true
  | .dyadic n₁ e₁, .dyadic n₂ e₂ =>
    let (a, b) := align n₁ e₁ n₂ e₂
    a < b

/-- Equality of exact values. -/
def eq : Extended → Extended → Bool
  | .negInfinity, .negInfinity | .posInfinity, .posInfinity => true
  | .dyadic n₁ e₁, .dyadic n₂ e₂ =>
    let (a, b) := align n₁ e₁ n₂ e₂
    a == b
  | _, _ => false

end Extended

/-- The exact value of a floating-point number. -/
def Binary64.extended : Binary64 → Extended
  | .nan => .undefined
  | .infinity negative => if negative then .negInfinity else .posInfinity
  | .finite negative m e => .dyadic (if negative then -(m : Int) else m) e

/-- An integer or a floating-point number. -/
inductive Number where
  | int (value : Int)
  | float (value : Binary64)
deriving DecidableEq, Inhabited

namespace Number

/-- The exact value of a number. -/
def extended : Number → Extended
  | .int n => .dyadic n 0
  | .float x => x.extended

/-- Whether one number is less than another. -/
def lt (a b : Number) : Bool := a.extended.lt b.extended

/-- Whether two numbers have the same exact value. -/
def eq (a b : Number) : Bool := a.extended.eq b.extended

/-- The decimal text of a number. -/
def text : Number → String
  | .int n => toString n
  | .float x => x.text

end Number

end DataContract
