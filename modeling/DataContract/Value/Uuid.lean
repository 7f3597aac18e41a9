/-
# Universally unique identifiers

The canonical text has 36 characters: hexadecimal digits in groups of 8, 4, 4, 4
and 12, set apart by hyphens, in letters of either case. A random identifier has
the digit 4 at the start of the third group and one of 8, 9, a and b at the start
of the fourth.
-/

import DataContract.Value.Basic

set_option autoImplicit false

namespace DataContract.Uuid

/-- Whether a character is a hexadecimal digit of either case. -/
def isHex (c : Char) : Bool :=
  ('0' ≤ c && c ≤ '9') || ('a' ≤ c && c ≤ 'f') || ('A' ≤ c && c ≤ 'F')

/-- Whether a character is the digit of a random identifier's version. -/
def isVersionFour (c : Char) : Bool := c == '4'

/-- Whether a character is a digit of a random identifier's variant. -/
def isVariant (c : Char) : Bool := ['8', '9', 'a', 'b', 'A', 'B'].contains c

/-- Whether a character is a hyphen. -/
def isHyphen (c : Char) : Bool := c == '-'

/-- A number of hexadecimal digits. -/
def hexes (count : Nat) : List (Char → Bool) := List.replicate count isHex

/-- The tests for the characters of an identifier, in order. -/
def layout : UuidVersion → List (Char → Bool)
  | .timeBased =>
    hexes 8 ++ [isHyphen] ++ hexes 4 ++ [isHyphen] ++ hexes 4 ++ [isHyphen] ++ hexes 4 ++
      [isHyphen] ++ hexes 12
  | .random =>
    hexes 8 ++ [isHyphen] ++ hexes 4 ++ [isHyphen] ++ isVersionFour :: hexes 3 ++ [isHyphen] ++
      isVariant :: hexes 3 ++ [isHyphen] ++ hexes 12

/-- Whether each character of a text passes its test and none is missing or left. -/
def fits : List (Char → Bool) → List Char → Bool
  | [], [] => true
  | test :: tests, c :: cs => test c && fits tests cs
  | _, _ => false

/-- Whether a text is an identifier of a version. -/
def accepts (version : UuidVersion) (s : String) : Bool := fits (layout version) s.toList

end DataContract.Uuid
