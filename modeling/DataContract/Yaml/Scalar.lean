/-
# The values of scalars

The tag of a plain scalar from its text, and the value of a scalar from its tag.
A numeral may have low lines between its digits, and parts of base sixty between
colons.
-/

import DataContract.Number.Arithmetic
import DataContract.Text.Integer
import DataContract.Yaml.Tag
import DataContract.Yaml.Timestamp

set_option autoImplicit false

namespace DataContract.Yaml

/-- The tag of a plain scalar without a tag of its own. -/
def Tag.ofPlain (text : String) : Tag :=
  let cs := text.toList
  if (booleanWords.lookup text).isSome then .boolean
  else if isFloat cs then .float
  else if isInteger cs then .integer
  else if text == "<<" then .merge
  else if nullWords.contains text then .null
  else if Timestamp.isPlain cs then .timestamp
  else if text == "=" then .defaultValue
  else .text

/-- The sign of a numeral, and its digits without low lines. -/
def unsigned (cs : List Char) : Bool × List Char :=
  Binary64.readSign (cs.filter (· != '_'))

/-- An integer with a sign. -/
def signed (negative : Bool) (n : Int) : Int := if negative then -n else n

/-- The failure to read a text as an integer of some base. -/
def badInteger (base : Nat) (cs : List Char) : Error :=
  .scalar <| .malformed ("invalid literal for int() with base " ++ toString base ++ ": " ++
    Text.quoted (String.ofList cs))

/-- The integer that digits of a base write. -/
def integerIn (base : Nat) (cs : List Char) : Except Error Int :=
  if Tag.isRun (fun c => (Text.hexValue? c).any (· < base)) cs then .ok (Text.numberIn base cs)
  else .error (badInteger base cs)

/-- The failure to read a numeral with too many digits. -/
def tooManyDigits (count : Nat) : Error :=
  .scalar <| .malformed ("Exceeds the limit (" ++ toString Text.greatestDigitCount ++
    " digits) for integer string conversion: value has " ++ toString count ++
    " digits; use sys.set_int_max_str_digits() to increase the limit")

/-- The integer that a decimal numeral writes. -/
def decimalInteger (cs : List Char) : Except Error Int :=
  match Text.readInteger? cs with
  | some n => .ok n
  | none =>
    if Tag.isRun Text.isAsciiDigit cs then .error (tooManyDigits cs.length)
    else .error (badInteger 10 cs)

/-- The value of an integer numeral. -/
def integerValue (text : String) : Except Error Int := do
  let (negative, cs) := unsigned text.toList
  signed negative <$> match cs with
    | [] => throw (.scalar .noDigits)
    | ['0'] => pure 0
    | '0' :: 'b' :: digits => integerIn 2 digits
    | '0' :: 'x' :: digits => integerIn 16 digits
    | '0' :: _ => integerIn 8 cs
    | _ =>
      if cs.contains ':' then do
        let parts ← (Tag.colonParts cs).mapM decimalInteger
        return parts.foldl (fun total part => total * 60 + part) 0
      else decimalInteger cs

/-- The floating-point number that a decimal numeral writes. -/
def decimalFloat (cs : List Char) : Except Error Binary64 :=
  match Binary64.ofText? (String.ofList cs) with
  | some x => .ok x
  | none =>
    .error <| .scalar <| .malformed
      ("could not convert string to float: " ++ Text.quoted (String.ofList cs))

/-- The sum of parts of base sixty, the last one first; every product and every sum is
rounded. -/
def sexagesimalSum : List Binary64 → Nat → Binary64 → Binary64
  | [], _, total => total
  | part :: rest, base, total =>
    sexagesimalSum rest (base * 60) (total.addMagnitudes (part.scaleMagnitude base))

/-- The value of a numeral with a fraction. -/
def floatValue (text : String) : Except Error Binary64 := do
  let (negative, cs) := unsigned text.toLower.toList
  if text.toList.all (· == '_') then throw (.scalar .noDigits)
  let magnitude ← match cs with
    | ['.', 'i', 'n', 'f'] => pure (Binary64.infinity false)
    | ['.', 'n', 'a', 'n'] => pure Binary64.nan
    | cs =>
      if cs.contains ':' then
        (fun parts => sexagesimalSum parts.reverse 1 Binary64.zero) <$>
          (Tag.colonParts cs).mapM decimalFloat
      else decimalFloat cs
  return if negative then magnitude.negate else magnitude

/-- The value of a day or moment. -/
def timestampValue (text : String) : Except Error Value :=
  match Timestamp.read? text.toList with
  | none => .error (.scalar .noDate)
  | some t =>
    match t.fault?, t with
    | some fault, _ => .error (.scalar (.malformed (calendarFaultText fault)))
    | none, .day d => .ok (.date d)
    | none, .moment m => .ok (.moment m)

/-- The value of a letter of base sixty-four. -/
def sextet? (c : Char) : Option Nat :=
  if 'A' ≤ c && c ≤ 'Z' then some (c.toNat - 'A'.toNat)
  else if 'a' ≤ c && c ≤ 'z' then some (c.toNat - 'a'.toNat + 26)
  else if '0' ≤ c && c ≤ '9' then some (c.toNat - '0'.toNat + 52)
  else if c == '+' then some 62
  else if c == '/' then some 63
  else none

/-- The bytes that letters of base sixty-four write. Four letters write three bytes:
`place` letters of the current four have been read, whose bits that belong to the next
byte are `bits`, and `pads` signs of padding follow the last letter. Other characters are
passed over. -/
def bytesIn : List Char → (place bits pads : Nat) → Option (List UInt8)
  | [], place, _, _ => if place = 0 then some [] else none
  | c :: rest, place, bits, pads =>
    if c == '=' then
      if 2 ≤ place ∧ 4 ≤ place + pads + 1 then some []
      else bytesIn rest place bits (if 2 ≤ place then pads + 1 else pads)
    else
      match sextet? c with
      | none => bytesIn rest place bits pads
      | some n =>
        match place with
        | 0 => bytesIn rest 1 n 0
        | 1 => (bytesIn rest 2 (n % 16) 0).map (UInt8.ofNat (bits * 4 + n / 16) :: ·)
        | 2 => (bytesIn rest 3 (n % 4) 0).map (UInt8.ofNat (bits * 16 + n / 4) :: ·)
        | _ => (bytesIn rest 0 0 0).map (UInt8.ofNat (bits * 64 + n) :: ·)

/-- The value of a text in base sixty-four. -/
def bytesValue (text : String) : Except Error Value :=
  if text.toList.any (127 < ·.toNat) then .error .meaning
  else
    match bytesIn text.toList 0 0 0 with
    | some bytes => .ok (.bytes bytes)
    | none => .error .meaning

/-- The value of a scalar with a tag. -/
def scalarValue (tag : Tag) (text : String) : Except Error Value :=
  match tag with
  | .null => .ok .null
  | .boolean =>
    match Tag.booleanWords.lookup text.toLower with
    | some b => .ok (.bool b)
    | none => .error (.scalar .noTruthValue)
  | .integer => (integerValue text).map .int
  | .float => (floatValue text).map .float
  | .timestamp => timestampValue text
  | .text => .ok (.text text)
  | .bytes => bytesValue text
  | .sequence | .mapping | .set | .pairs | .merge | .defaultValue | .unknown => .error .meaning

end DataContract.Yaml
