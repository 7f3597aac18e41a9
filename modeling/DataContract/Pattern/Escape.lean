/-
# Escapes and character classes

A backslash makes a special character plain and a letter or digit special: it names
a class, an assertion, a control character, a code point, or a group that has been
read. Inside a class there are no assertions and no groups.
-/

import DataContract.Pattern.Reader
import DataContract.Text.Digit

set_option autoImplicit false

namespace DataContract.Pattern

open Text

/-- Whether a character is an octal digit. -/
def isOctal (c : Char) : Bool := '0' ≤ c && c ≤ '7'

/-- Reads an escape with a fixed number of hexadecimal digits. -/
def hexEscape (escape : List Char) (count : Nat) : Reader Nat := do
  let digits ← takeWhile (fun c => (hexValue? c).isSome) count
  let escape := escape ++ digits
  if digits.length != count then
    refuseBefore (.incompleteEscape (String.ofList escape)) escape.length
  else if 0x10ffff < numberIn 16 digits then
    refuseBefore (.badEscape (String.ofList escape)) escape.length
  else return numberIn 16 digits

/-- The code point of a control character that has a letter of its own. -/
def controlEscape? : Char → Option Nat
  | 'a' => some 7
  | 'f' => some 12
  | 'n' => some 10
  | 'r' => some 13
  | 't' => some 9
  | 'v' => some 11
  | '\\' => some '\\'.toNat
  | _ => none

/-- The class that a letter names after a backslash. -/
def categoryEscape? : Char → Option ClassItem
  | 'd' => some (.category .digit false)
  | 'D' => some (.category .digit true)
  | 's' => some (.category .blank false)
  | 'S' => some (.category .blank true)
  | 'w' => some (.category .word false)
  | 'W' => some (.category .word true)
  | _ => none

/-- The assertion that a letter names after a backslash. -/
def anchorEscape? : Char → Option Anchor
  | 'A' => some .textStart
  | 'Z' => some .textEnd
  | 'b' => some .wordBoundary
  | 'B' => some .noWordBoundary
  | _ => none

/-- Reads an escape that stands for one character, given the character after the
backslash. Letters that mean nothing are refused. -/
def charEscape (c : Char) : Reader Nat := do
  let escape := ['\\', c]
  match controlEscape? c with
  | some code => return code
  | none =>
    if c == 'x' then hexEscape escape 2
    else if c == 'u' then hexEscape escape 4
    else if c == 'U' then hexEscape escape 8
    else if c.isAlpha || isAsciiDigit c then
      refuseBefore (.badEscape (String.ofList escape)) 2
    else return c.toNat

/-- Reads the rest of an octal escape that began with some digits. -/
def octalEscape (escape : List Char) (more : Nat) : Reader Nat := do
  let digits ← takeWhile isOctal more
  let escape := escape ++ digits
  let code := numberIn 8 (escape.drop 1)
  if 0o377 < code then refuseBefore (.octalTooLarge (String.ofList escape)) escape.length
  else return code

/-- Reads an escape inside a class. -/
def classEscape (c : Char) : Reader ClassItem := do
  match categoryEscape? c with
  | some item => return item
  | none =>
    if c == 'b' then return .char 8
    else if isOctal c then return .char (← octalEscape ['\\', c] 2)
    else return .char (← charEscape c)

/-- Where the pattern looks back, a group that is mentioned has ended before. -/
def checkBehind (index : Nat) : Reader Unit := do
  let p ← get
  match p.groupsBehind with
  | none => return
  | some earlier =>
    if (p.widths.lookup index).isNone then refuse .openGroup
    else if earlier < index then refuse .groupInLookBehind

/-- Refers to a group by its number. -/
def backreference (index : Nat) (offset : Nat) (openOffset : Nat) : Reader Regex := do
  let p ← get
  if p.groupCount < index then refuseBefore (.noSuchGroup index) offset
  else if (p.widths.lookup index).isNone then refuseBefore .openGroup openOffset
  else
    checkBehind index
    return .backref index

/-- Reads an escape that begins with a digit other than zero: three octal digits
are a character, and one or two digits refer to a group. -/
def digitEscape (c : Char) : Reader Regex := do
  match ← peek with
  | [second] =>
    if isAsciiDigit second then
      let _ ← advance
      let third ← peek
      if isOctal c && isOctal second && (third.all isOctal && !third.isEmpty) then
        return .char (← octalEscape ['\\', c, second] 1)
      else backreference (asciiNat [c, second]) 2 3
    else backreference (asciiNat [c]) 1 2
  | _ => backreference (asciiNat [c]) 1 2

/-- Reads an escape outside a class. -/
def escape (c : Char) : Reader Regex := do
  match categoryEscape? c, anchorEscape? c with
  | some item, _ => return .set false [item]
  | _, some anchor => return .anchor anchor
  | none, none =>
    if c == '0' then return .char (← octalEscape ['\\', c] 2)
    else if isAsciiDigit c then digitEscape c
    else return .char (← charEscape c)

/-- Reads one member of a class from its token. -/
def classMember : List Char → Reader ClassItem
  | ['\\', c] => classEscape c
  | c :: _ => return .char c.toNat
  | [] => refuse .endOfPattern

/-- Reads the members of a class up to its end; `start` is where the class began
and `items` holds the members read so far, last first. -/
def readClass (start : Nat) : Nat → List ClassItem → Reader (List ClassItem)
  | 0, items => return items.reverse
  | bound + 1, items => do
    let this ← advance
    if this.isEmpty then refuseAt .unterminatedClass start
    else if this == [']'] && !items.isEmpty then return items.reverse
    else
      let low ← classMember this
      if ← skip '-' then
        let that ← advance
        if that.isEmpty then refuseAt .unterminatedClass start
        else if that == [']'] then return (.char '-'.toNat :: low :: items).reverse
        else
          let high ← classMember that
          let bad := refuseBefore (.badRange (String.ofList this) (String.ofList that))
            (this.length + 1 + that.length)
          match low, high with
          | .char a, .char b =>
            if b < a then bad else readClass start bound (.range a b :: items)
          | _, _ => bad
      else readClass start bound (low :: items)

end DataContract.Pattern
