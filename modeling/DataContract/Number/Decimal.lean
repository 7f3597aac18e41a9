/-
# Decimal text of floating-point numbers

Writing: among the decimal numerals that read back as a given number, the ones
with the fewest digits are taken, and of those the nearest to the number; a tie
goes to the even last digit. Decimal exponents from -4 to 15 are written
positionally, all others with an exponent of at least two digits.

Reading: a numeral stands for the number nearest to its exact decimal value.
-/

import DataContract.Number.Binary64
import DataContract.Text.Digit

set_option autoImplicit false

namespace DataContract.Binary64

/-- Compares `a · 10 ^ k` with `b · 2 ^ e`, exactly. -/
def compareScaled (a : Nat) (k : Int) (b : Nat) (e : Int) : Ordering :=
  compare (a * tenPow k.toNat * twoPow (-e).toNat) (b * twoPow e.toNat * tenPow (-k).toNat)

/-- Whether a decimal reads back as `m · 2 ^ e`: it lies within half a gap of the
number, the ends included when the mantissa is even. In units of `2 ^ (e - 2)`
the number is `4 m`, the gap above it `4`, and the gap below it `4`, or `2` where
the number begins a new power of two. -/
def readsBackAs (m : Nat) (e : Int) (digits : Nat) (k : Int) : Bool :=
  let below := if m = twoPow 52 ∧ leastExponent < e then 1 else 2
  let low := compareScaled digits k (4 * m - below) (e - 2)
  let high := compareScaled digits k (4 * m + 2) (e - 2)
  if m % 2 = 0 then low.isGE && high.isLE else low.isGT && high.isLT

/-- The exponent of the leading decimal digit of a positive quotient. -/
def leadingExponent (num den : Nat) : Int :=
  if den ≤ num then (toString (num / den)).length - 1
  else
    let places := (toString (den / num)).length
    if den = num * tenPow (places - 1) then -((places : Int) - 1) else -(places : Int)

/-- The decimal on the grid of step `10 ^ k` that reads back as `m · 2 ^ e`, if
one of the two neighbours of the number does; of two the nearer is taken, and the
even one when both are equally near. -/
def nearestOnGrid (m : Nat) (e k : Int) : Option (Nat × Int) :=
  let (num, den) := scaleByPowerOfTwo m e
  let (num, den) :=
    if 0 ≤ k then (num, den * tenPow k.toNat) else (num * tenPow (-k).toNat, den)
  let lower := num / den
  let upper := lower + 1
  match readsBackAs m e lower k, readsBackAs m e upper k with
  | false, false => none
  | true, false => some (lower, k)
  | false, true => some (upper, k)
  | true, true =>
    let twice := 2 * (num % den)
    if twice < den then some (lower, k)
    else if den < twice then some (upper, k)
    else some (if lower % 2 = 0 then lower else upper, k)

/-- The shortest decimal that reads back as the positive number `m · 2 ^ e`, as
digits and the exponent of the last digit. Seventeen digits always suffice; the
exact value stands for the case that cannot occur. -/
def shortest (m : Nat) (e : Int) : Nat × Int :=
  let (num, den) := scaleByPowerOfTwo m e
  let lead := leadingExponent num den
  ((List.range 17).findSome? fun places : Nat => nearestOnGrid m e (lead - places)).getD (num, 0)

/-- Drops the zeros at the end of a numeral and raises the exponent to match. -/
def dropTrailingZeros : List Char → Int → List Char × Int
  | reversed, k =>
    let zeros := reversed.takeWhile (· == '0')
    (reversed.drop zeros.length |>.reverse, k + zeros.length)

/-- Writes digits with the point after the digit of exponent zero. -/
def positional (digits : List Char) (lead : Int) : List Char :=
  if lead < 0 then
    '0' :: '.' :: List.replicate (-lead - 1).toNat '0' ++ digits
  else
    let whole := lead.toNat + 1
    if digits.length ≤ whole then
      digits ++ List.replicate (whole - digits.length) '0' ++ ['.', '0']
    else digits.take whole ++ '.' :: digits.drop whole

/-- Writes digits with the point after the first one, and an exponent. -/
def scientific (digits : List Char) (lead : Int) : List Char :=
  let fraction := if digits.length ≤ 1 then [] else '.' :: digits.drop 1
  let power := (toString lead.natAbs).toList
  let power := if power.length < 2 then '0' :: power else power
  digits.take 1 ++ fraction ++ 'e' :: (if lead < 0 then '-' else '+') :: power

/-- The text of a number: the fewest digits that read back. -/
def text : Binary64 → String
  | .nan => "nan"
  | .infinity negative => if negative then "-inf" else "inf"
  | .finite negative m e =>
    let sign := if negative then ['-'] else []
    if m = 0 then String.ofList (sign ++ ['0', '.', '0'])
    else
      let (digits, k) := shortest m e
      let (digits, k) := dropTrailingZeros (toString digits).toList.reverse k
      let lead : Int := k + digits.length - 1
      let body :=
        if -4 ≤ lead ∧ lead < 16 then positional digits lead else scientific digits lead
      String.ofList (sign ++ body)

/-- Reads a sign. -/
def readSign : List Char → Bool × List Char
  | '-' :: rest => (true, rest)
  | '+' :: rest => (false, rest)
  | rest => (false, rest)

/-- Reads the exponent part of a numeral, which may be missing. -/
def readExponent : List Char → Option Int
  | [] => some 0
  | mark :: rest =>
    let (negative, digits) := readSign rest
    if (mark == 'e' || mark == 'E') && !digits.isEmpty && digits.all Text.isAsciiDigit then
      some (if negative then -(Text.asciiNat digits : Int) else Text.asciiNat digits)
    else none

/-- Reads a decimal numeral: an optional sign, digits with an optional point, and
an optional exponent; also `inf` and `nan`. -/
def ofText? (s : String) : Option Binary64 :=
  let (negative, rest) := readSign s.toList
  if rest == ['i', 'n', 'f'] then some (.infinity negative)
  else if rest == ['n', 'a', 'n'] then some .nan
  else
    let whole := rest.takeWhile Text.isAsciiDigit
    let rest := rest.dropWhile Text.isAsciiDigit
    let (fraction, rest) := match rest with
      | '.' :: rest => (rest.takeWhile Text.isAsciiDigit, rest.dropWhile Text.isAsciiDigit)
      | _ => ([], rest)
    if whole.isEmpty && fraction.isEmpty then none
    else (readExponent rest).map fun power =>
      ofDecimal negative (Text.asciiNat (whole ++ fraction)) (power - fraction.length)

end DataContract.Binary64
