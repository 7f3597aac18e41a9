/-
# Reading positions in a pattern

A pattern is read token by token: a token is a character, or a backslash with
the character after it. The reader always looks one token ahead, so a lone
backslash at the end is noticed when the token before it is taken, before that
token is judged. A fault carries the position of the character it is about.
-/

import DataContract.Pattern.Defect
import DataContract.Pattern.Tree

set_option autoImplicit false

namespace DataContract.Pattern

/-- How far a pattern has been read, and what has been learnt from it: the options
switched on, whether the full classes are asked for, the number of groups begun, their
names, and how much those take that have ended; how many groups had begun before the
outermost look back that is being read; the groups whose presence is asked for, each with
the position of the question; and whether some text to look back for has no fixed width. -/
structure Progress where
  rest : List Char
  index : Nat := 0
  options : Options
  full : Bool := false
  groupCount : Nat := 0
  names : List (String × Nat) := []
  widths : List (Nat × Width) := []
  groupsBehind : Option Nat := none
  asked : List (Nat × Nat) := []
  variableBehind : Bool := false

/-- A step of the reader. -/
abbrev Reader := StateT Progress (Except Fault)

/-- Refuses the pattern with a defect at a position. -/
def refuseAt {α : Type} (defect : Defect) (position : Nat) : Reader α :=
  throw (.malformed defect position)

/-- Refuses the pattern at the next token. -/
def refuse {α : Type} (defect : Defect) : Reader α := do refuseAt defect (← get).index

/-- Refuses the pattern a number of characters before the next token. -/
def refuseBefore {α : Type} (defect : Defect) (distance : Nat) : Reader α := do
  refuseAt defect ((← get).index - distance)

/-- The next token, empty at the end. -/
def tokenOf : List Char → List Char
  | '\\' :: c :: _ => ['\\', c]
  | c :: _ => [c]
  | [] => []

/-- The next token. -/
def peek : Reader (List Char) := do return tokenOf (← get).rest

/-- Whether the next token is a given character. -/
def sees (c : Char) : Reader Bool := do return (← peek) == [c]

/-- Checks that the token ahead is whole. -/
def lookAhead : Reader Unit := do
  let p ← get
  if p.rest == ['\\'] then refuse .danglingBackslash

/-- Takes the next token. -/
def advance : Reader (List Char) := do
  let token ← peek
  modify fun p =>
    { p with rest := p.rest.drop token.length, index := p.index + token.length }
  lookAhead
  return token

/-- Takes the next token if it is a given character. -/
def skip (c : Char) : Reader Bool := do
  if ← sees c then
    let _ ← advance
    return true
  else return false

/-- Takes up to `bound` tokens that are characters of a class. -/
def takeWhile (test : Char → Bool) : Nat → Reader (List Char)
  | 0 => return []
  | bound + 1 => do
    match ← peek with
    | [c] =>
      if test c then
        let _ ← advance
        return c :: (← takeWhile test bound)
      else return []
    | _ => return []

end DataContract.Pattern
