/-
# Quoted scalars

The text between quotes. Between single quotes a quote is written twice; between
double quotes a backslash begins an escape. A line break with the spaces around
it is folded: into a space, or into the empty lines that follow it. The reader is
a machine that takes one character at a time.
-/

import DataContract.Yaml.Cursor

set_option autoImplicit false

namespace DataContract.Yaml

/-- Where the reader of a quoted scalar stands. In `content`, that many spaces stand
at the end of what has been read; they are dropped before a line break. In `lines`
the reader is after a line break (`none` for an escaped one), with the breaks of
the empty lines since then, the latest first. -/
inductive QuotedMode where
  | content (spaces : Nat)
  | literal
  | escape
  | code (digits value : Nat)
  | lines (ending : Option Char) (breaks : List Char)

/-- What becomes of a line break: a space if it is a single line feed, the breaks
after it otherwise; written in front of reversed text. -/
def foldBreak (ending : Option Char) (breaks out : List Char) : List Char :=
  match ending with
  | some '\n' => if breaks.isEmpty then ' ' :: out else breaks ++ out
  | some c => breaks ++ c :: out
  | none => breaks ++ out

/-- The character that an escape of one letter stands for. -/
def escapeLetter? (c : Char) : Option Char :=
  match c with
  | '0' => some '\x00'
  | 'a' => some '\x07'
  | 'b' => some '\x08'
  | 't' | '\t' => some '\t'
  | 'n' => some '\n'
  | 'v' => some '\x0b'
  | 'f' => some '\x0c'
  | 'r' => some '\r'
  | 'e' => some '\x1b'
  | ' ' | '\x22' | '\\' | '/' => some c
  | 'N' => some '\x85'
  | '_' => some '\xa0'
  | 'L' => some '\u2028'
  | 'P' => some '\u2029'
  | _ => none

/-- The number of hexadecimal digits of an escape by code point. -/
def escapeDigits? (c : Char) : Option Nat :=
  match c with
  | 'x' => some 2
  | 'u' => some 4
  | 'U' => some 8
  | _ => none

/-- The first of the private characters that stand for the halves of surrogate pairs, which
are no characters themselves. -/
def halfPairStart : Nat := 0x10F800

/-- Whether a character stands for half of a surrogate pair. -/
def isHalfPair (c : Char) : Bool := halfPairStart ≤ c.toNat

/-- The character with a code point. -/
def charOfCode (code : Nat) : Except Error Char :=
  if code.isValidChar then .ok (Char.ofNat code)
  else if code ≤ 0x10FFFF then .ok (Char.ofNat (halfPairStart + (code - 0xD800)))
  else .error (.scalar .noCharacter)

/-- What one character does: it ends the scalar, or it leads on. -/
inductive QuotedStep where
  | finish (out : List Char)
  | next (mode : QuotedMode) (out : List Char)

/-- A line break that is followed by `rest`. -/
def beginLine (ending : Option Char) (breaks out rest : List Char) : Except Error QuotedStep :=
  if startsSeparator rest then .error .tokens else .ok (.next (.lines ending breaks) out)

/-- A character of the content, after `spaces` spaces. -/
def contentStep (double : Bool) (spaces : Nat) (out : List Char) (c : Char) (rest : List Char) :
    Except Error QuotedStep :=
  if double then
    if c == '\x22' then .ok (.finish out)
    else if c == '\\' then .ok (.next .escape out)
    else plain
  else if c == '\x27' then
    if rest.head? == some '\x27' then .ok (.next .literal out) else .ok (.finish out)
  else plain
where
  /-- A character that is not special between the quotes. -/
  plain : Except Error QuotedStep :=
    if isBreak c then beginLine (some (breakText c)) [] (out.drop spaces) rest
    else .ok (.next (.content (if isSpace c then spaces + 1 else 0)) (c :: out))

/-- One character in a given mode. -/
def quotedStep (double : Bool) (mode : QuotedMode) (out : List Char) (c : Char)
    (rest : List Char) : Except Error QuotedStep :=
  match mode with
  | .content spaces => contentStep double spaces out c rest
  | .literal => .ok (.next (.content 0) (c :: out))
  | .escape =>
    match escapeLetter? c, escapeDigits? c with
    | some r, _ => .ok (.next (.content 0) (r :: out))
    | none, some digits => .ok (.next (.code digits 0) out)
    | none, none => if isBreak c then beginLine none [] out rest else .error .tokens
  | .code digits value =>
    match Text.hexValue? c with
    | none => .error .tokens
    | some digit =>
      let value := value * 16 + digit
      if digits ≤ 1 then (charOfCode value).map fun r => .next (.content 0) (r :: out)
      else .ok (.next (.code (digits - 1) value) out)
  | .lines ending breaks =>
    if isSpace c then .ok (.next mode out)
    else if isBreak c then beginLine ending (breakText c :: breaks) out rest
    else contentStep double 0 (foldBreak ending breaks out) c rest

/-- Reads a quoted scalar from after its first quote. -/
def readQuotedIn (double : Bool) :
    QuotedMode → List Char → Position → List Char → Except Error (String × Cursor)
  | _, _, _, [] => .error .tokens
  | mode, out, p, c :: rest =>
    match quotedStep double mode out c rest with
    | .error e => .error e
    | .ok (.finish out) => .ok (String.ofList out.reverse, ⟨p.after c, rest⟩)
    | .ok (.next mode out) => readQuotedIn double mode out (p.after c) rest

/-- Reads a quoted scalar; the cursor is at its first quote. -/
def readQuoted (double : Bool) (c : Cursor) : Except Error (String × Cursor) :=
  let inside := c.advance 1
  readQuotedIn double (.content 0) [] inside.position inside.rest

end DataContract.Yaml
