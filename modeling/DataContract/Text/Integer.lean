/-
# Integers in text

An optional sign and decimal digits of any script; single low lines may stand
between digits. Numerals of more than 4300 digits are refused.
-/

import DataContract.Text.Digit

set_option autoImplicit false

namespace DataContract.Text

/-- The most digits that a numeral may have. -/
def greatestDigitCount : Nat := 4300

/-- Reads the digits after the first one; `total` is the value so far. -/
def readMoreDigits : List Char → Nat → Option Nat
  | [], total => some total
  | '_' :: c :: rest, total => do
    let digit ← digitValue? c
    readMoreDigits rest (total * 10 + digit)
  | c :: rest, total => do
    let digit ← digitValue? c
    readMoreDigits rest (total * 10 + digit)

/-- Reads an unsigned numeral. -/
def readNatural? : List Char → Option Nat
  | [] => none
  | c :: rest =>
    if greatestDigitCount < ((c :: rest).filter (· != '_')).length then none
    else do
      let digit ← digitValue? c
      readMoreDigits rest digit

/-- Reads a numeral with an optional sign. -/
def readInteger? : List Char → Option Int
  | '-' :: rest => (readNatural? rest).map fun n => -(n : Int)
  | '+' :: rest => (readNatural? rest).map Int.ofNat
  | rest => (readNatural? rest).map Int.ofNat

/-- The code points that count as digits without having a place in a numeral,
such as superscripts and circled digits. -/
def digitSignRanges : List (Nat × Nat) := [
  (0xb2, 0xb3), (0xb9, 0xb9), (0x1369, 0x1371), (0x19da, 0x19da), (0x2070, 0x2070),
  (0x2074, 0x2079), (0x2080, 0x2089), (0x2460, 0x2468), (0x2474, 0x247c), (0x2488, 0x2490),
  (0x24ea, 0x24ea), (0x24f5, 0x24fd), (0x24ff, 0x24ff), (0x2776, 0x277e), (0x2780, 0x2788),
  (0x278a, 0x2792), (0x10a40, 0x10a43), (0x10e60, 0x10e68), (0x11052, 0x1105a),
  (0x1f100, 0x1f10a)
]

/-- Whether a character is a digit or a digit sign. -/
def isDigitSign (c : Char) : Bool :=
  isDigit c || digitSignRanges.any fun (low, high) => low ≤ c.toNat && c.toNat ≤ high

end DataContract.Text
