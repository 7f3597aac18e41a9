/-
# Powers of two and of ten

The two bases of numerals: binary exponents scale mantissas, decimal exponents
scale written digits. Both functions are plain natural powers.
-/

set_option autoImplicit false

namespace DataContract

/-- Two to the power of a natural number. -/
def twoPow (exponent : Nat) : Nat := Nat.pow 2 exponent

/-- Ten to the power of a natural number. -/
def tenPow (exponent : Nat) : Nat := Nat.pow 10 exponent

theorem twoPow_succ (exponent : Nat) : twoPow (exponent + 1) = twoPow exponent * 2 := rfl

theorem tenPow_succ (exponent : Nat) : tenPow (exponent + 1) = tenPow exponent * 10 := rfl

end DataContract
