/-
# Quoted text

The quoted form of a text or of a byte string: the quote that needs no escape is
preferred, the usual control characters have letters of their own, and every
other character that is not printable is written by its code point in
hexadecimal.
-/

import DataContract.Text.Printable

set_option autoImplicit false

namespace DataContract.Text

/-- A lower-case hexadecimal digit. -/
def hexDigit (n : Nat) : Char :=
  if n < 10 then Char.ofNat ('0'.toNat + n) else Char.ofNat ('a'.toNat + (n - 10))

/-- The last `width` hexadecimal digits of a number, leading zeros included. -/
def hexDigits : Nat → Nat → List Char
  | 0, _ => []
  | width + 1, n => hexDigits width (n / 16) ++ [hexDigit (n % 16)]

/-- The quote to put around a text: `'`, unless the text holds `'` and no `"`. -/
def preferredQuote (cs : List Char) : Char :=
  if cs.contains '\'' && !cs.contains '"' then '"' else '\''

/-- The escape of a character that is not shown as it is, by its code point. -/
def codeEscape (code : Nat) : List Char :=
  if code ≤ 0xff then '\\' :: 'x' :: hexDigits 2 code
  else if code ≤ 0xffff then '\\' :: 'u' :: hexDigits 4 code
  else '\\' :: 'U' :: hexDigits 8 code

/-- One character inside quotes. -/
def quotedChar (quote c : Char) : List Char :=
  if c == quote || c == '\\' then ['\\', c]
  else if c == '\t' then ['\\', 't']
  else if c == '\n' then ['\\', 'n']
  else if c == '\r' then ['\\', 'r']
  else if isPrintable c then [c]
  else codeEscape c.toNat

/-- The quoted form of a text. -/
def quoted (s : String) : String :=
  let cs := s.toList
  let quote := preferredQuote cs
  String.ofList (quote :: cs.flatMap (quotedChar quote) ++ [quote])

/-- One byte inside quotes: as a character if it is printable ASCII. -/
def quotedByte (quote : Char) (byte : UInt8) : List Char :=
  let c := Char.ofNat byte.toNat
  if byte.toNat < 0x80 then quotedChar quote c else codeEscape byte.toNat

/-- The quoted form of a byte string, marked by a leading `b`. -/
def quotedBytes (bytes : List UInt8) : String :=
  let quote := preferredQuote (bytes.map fun byte => Char.ofNat byte.toNat)
  String.ofList ('b' :: quote :: bytes.flatMap (quotedByte quote) ++ [quote])

end DataContract.Text
