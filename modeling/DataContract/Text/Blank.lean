/-
# White space

The code points that count as blank when text is trimmed or split into words,
and for the blank class of a pattern.
-/

import DataContract.Text.Range

set_option autoImplicit false

namespace DataContract.Text

/-- The ranges of blank code points: the Unicode white space, and the four
information separators. -/
def blankRanges : List (Nat × Nat) := [
  (0x9, 0xd), (0x1c, 0x20), (0x85, 0x85), (0xa0, 0xa0), (0x1680, 0x1680), (0x2000, 0x200a),
  (0x2028, 0x2029), (0x202f, 0x202f), (0x205f, 0x205f), (0x3000, 0x3000)
]

/-- Whether a character is blank. -/
def isBlank (c : Char) : Bool := Range.covers blankRanges c.toNat

/-- Drops the blanks at both ends. -/
def trimBlank (cs : List Char) : List Char :=
  ((cs.dropWhile isBlank).reverse.dropWhile isBlank).reverse

/-- The maximal blank-free runs of a text, in order; `word` holds the characters
of the run being read, last first. -/
def blankWords : List Char → List Char → List (List Char)
  | [], word => if word.isEmpty then [] else [word.reverse]
  | c :: rest, word =>
    if isBlank c then
      if word.isEmpty then blankWords rest [] else word.reverse :: blankWords rest []
    else blankWords rest (c :: word)

/-- Splits a text at its blanks. -/
def words (cs : List Char) : List (List Char) := blankWords cs []

end DataContract.Text
