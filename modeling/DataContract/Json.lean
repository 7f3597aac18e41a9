/-
# Values as JSON text

A value is written over several lines, each level indented by two spaces. Characters
other than quotes, backslashes and control characters stand for themselves, and the
numbers that are not finite are written by name. Keys that are numbers, truth values
or nothing become texts; other keys have no JSON form. Values without a JSON form
are refused, or written as the text by which they are shown. What is left of data that
contain themselves, once their parts are written out, is always refused.
-/

import DataContract.Value.Text

set_option autoImplicit false

namespace DataContract.Json

/-- Why a value cannot be written. -/
inductive Fault where
  | key
  | value
  | circular
deriving DecidableEq

/-- One character inside quotes. -/
def quotedChar (c : Char) : List Char :=
  if c == '\x22' || c == '\\' then ['\\', c]
  else if c == '\n' then ['\\', 'n']
  else if c == '\r' then ['\\', 'r']
  else if c == '\t' then ['\\', 't']
  else if c == '\x0c' then ['\\', 'f']
  else if c == '\x08' then ['\\', 'b']
  else if c.toNat < 0x20 then '\\' :: 'u' :: Text.hexDigits 4 c.toNat
  else [c]

/-- A text in quotes. -/
def quoted (s : String) : String :=
  String.ofList ('\x22' :: s.toList.flatMap quotedChar ++ ['\x22'])

/-- A floating-point number. -/
def floatText : Binary64 → String
  | .nan => "NaN"
  | .infinity negative => if negative then "-Infinity" else "Infinity"
  | x => x.text

/-- A truth value. -/
def boolText (b : Bool) : String := if b then "true" else "false"

/-- The text of a key. -/
def keyText : Value → Except Fault String
  | .text s => .ok s
  | .int n => .ok (toString n)
  | .float x => .ok (floatText x)
  | .bool b => .ok (boolText b)
  | .null => .ok "null"
  | _ => .error .key

/-- The beginning of a line. -/
def newLine (depth : Nat) : String := String.ofList ('\n' :: List.replicate (2 * depth) ' ')

/-- Parts between brackets, each on a line of its own. -/
def bracketed (opening closing : String) (depth : Nat) (parts : List String) : String :=
  if parts.isEmpty then opening ++ closing
  else
    let separator := newLine (depth + 1)
    opening ++ separator ++ joinWith ("," ++ separator) parts ++ newLine depth ++ closing

/-- What is written for a value without a JSON form. -/
def otherText (lenient : Bool) (v : Value) : Except Fault String :=
  if lenient then .ok (quoted v.shown) else .error .value

mutual

/-- Writes a value that stands at a depth. -/
def text (lenient : Bool) (depth : Nat) : Value → Except Fault String
  | .null => .ok "null"
  | .bool b => .ok (boolText b)
  | .int n => .ok (toString n)
  | .float x => .ok (floatText x)
  | .text s => .ok (quoted s)
  | .list items => (itemTexts lenient (depth + 1) items).map (bracketed "[" "]" depth)
  | .tuple items => (itemTexts lenient (depth + 1) items).map (bracketed "[" "]" depth)
  | .object entries =>
    (entryTexts lenient (depth + 1) entries).map (bracketed "\x7b" "\x7d" depth)
  | .shared _ => .error .circular
  | v => otherText lenient v
  termination_by structural v => v

/-- Writes some items. -/
def itemTexts (lenient : Bool) (depth : Nat) : List Value → Except Fault (List String)
  | [] => .ok []
  | v :: rest => do
    let part ← text lenient depth v
    return part :: (← itemTexts lenient depth rest)
  termination_by structural items => items

/-- Writes some entries. -/
def entryTexts (lenient : Bool) (depth : Nat) :
    List (Value × Value) → Except Fault (List String)
  | [] => .ok []
  | (k, v) :: rest => do
    let key ← keyText k
    let part ← text lenient depth v
    return (quoted key ++ ": " ++ part) :: (← entryTexts lenient depth rest)
  termination_by structural entries => entries

end

/-- Writes a value. With `lenient`, values without a JSON form are written as the text
by which they are shown. -/
def render (lenient : Bool) (v : Value) : Except Fault String := text lenient 0 v

end DataContract.Json
