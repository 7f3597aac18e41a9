/-
# Ascending tables of code points

A character class is a list of closed ranges of code points in ascending order.
`Range.covers` decides membership and stops at the first range that begins past
the code point asked for, so the common low code points are decided early.
-/

set_option autoImplicit false

namespace DataContract.Text

/-- Membership of a code point in an ascending list of closed ranges. -/
def Range.covers : List (Nat × Nat) → Nat → Bool
  | [], _ => false
  | (low, high) :: rest, code =>
    if code < low then false else if code ≤ high then true else Range.covers rest code

end DataContract.Text
