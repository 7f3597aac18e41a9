/-
# Tokens of a document

The marks and scalars that a document is made of, and the readers of names: of
anchors, tags and directives. The beginnings and ends of indented blocks are
tokens too, though no characters stand for them.
-/

import DataContract.Yaml.Cursor

set_option autoImplicit false

namespace DataContract.Yaml

/-- A directive in front of a document: the version of the format, an abbreviation for
tags, or one that is unknown and means nothing. -/
inductive Directive where
  | version (major minor : Nat)
  | tagHandle (handle expansion : String)
  | unknown
deriving DecidableEq

/-- A token. -/
inductive Token where
  | directive (d : Directive)
  | documentStart
  | documentEnd
  | streamEnd
  | blockSequenceStart
  | blockMappingStart
  | blockEnd
  | flowSequenceStart
  | flowSequenceEnd
  | flowMappingStart
  | flowMappingEnd
  | blockEntry
  | flowEntry
  | key
  | value
  | alias (name : String)
  | anchor (name : String)
  | tag (handle : Option String) (suffix : String)
  | scalar (text : String) (plain : Bool)
deriving DecidableEq

namespace Cursor

/-- Reads the characters of a name, at least one. -/
def readName (c : Cursor) : Except Error (String × Cursor) :=
  let name := c.rest.takeWhile isNameChar
  if name.isEmpty then .error .tokens else .ok (String.ofList name, c.advance name.length)

/-- Whether a character can follow the name of an anchor. -/
def endsAnchor : List Char → Bool
  | [] => true
  | c :: rest => endsWord (c :: rest) || "?:,]\x7d%@\x60".toList.contains c

/-- Reads an anchor or alias after its indicator. -/
def readAnchor (c : Cursor) : Except Error (String × Cursor) := do
  let (name, after) ← (c.advance 1).readName
  if endsAnchor after.rest then return (name, after) else throw .tokens

/-- Whether a character can stand in a tag. -/
def isTagChar (c : Char) : Bool := isNameChar c || ";/?:@&=+$,.!~*\x27()[]%".toList.contains c

/-- The bytes at the front of a text that are written as a percent sign and two
hexadecimal digits. -/
def percentBytes : List Char → Except Error (List UInt8 × List Char)
  | '%' :: a :: b :: rest =>
    match Text.hexValue? a, Text.hexValue? b with
    | some a, some b => do
      let (bytes, rest) ← percentBytes rest
      return (UInt8.ofNat (a * 16 + b) :: bytes, rest)
    | _, _ => throw .tokens
  | '%' :: _ => throw .tokens
  | rest => return ([], rest)

/-- The text that bytes encode. -/
def decodeBytes (bytes : List UInt8) : Except Error String :=
  match String.fromUTF8? ⟨bytes.toArray⟩ with
  | some s => .ok s
  | none => .error .tokens

/-- Replaces the bytes written with percent signs in a tag, at most `bound` runs of
them. -/
def unescapeTag : Nat → List Char → Except Error String
  | 0, cs => .ok (String.ofList cs)
  | bound + 1, cs => do
    let plain := cs.takeWhile (· != '%')
    let (bytes, rest) ← percentBytes (cs.dropWhile (· != '%'))
    if bytes.isEmpty then return String.ofList plain
    else return String.ofList plain ++ (← decodeBytes bytes) ++ (← unescapeTag bound rest)

/-- Reads the characters of a tag, at least one. -/
def readTagText (c : Cursor) : Except Error (String × Cursor) := do
  let raw := c.rest.takeWhile isTagChar
  if raw.isEmpty then throw .tokens
  else return (← unescapeTag raw.length raw, c.advance raw.length)

/-- Reads the handle of a tag: an exclamation mark, or a name between two of them. -/
def readHandle (c : Cursor) : Except Error (String × Cursor) :=
  match c.rest with
  | '!' :: ' ' :: _ => .ok ("!", c.advance 1)
  | '!' :: rest =>
    let name := rest.takeWhile isNameChar
    if (rest.drop name.length).head? == some '!' then
      .ok (String.ofList ('!' :: name ++ ['!']), c.advance (name.length + 2))
    else .error .tokens
  | _ => .error .tokens

/-- Reads the parts of a tag; the cursor is at its exclamation mark. -/
def readTagParts (c : Cursor) : Except Error (Option String × String × Cursor) := do
  match c.rest with
  | _ :: '<' :: _ =>
    let (suffix, after) ← (c.advance 2).readTagText
    if after.next? == some '>' then return (none, suffix, after.advance 1) else throw .tokens
  | _ :: rest =>
    if endsWord rest then return (none, "!", c.advance 1)
    else
      let word := rest.takeWhile fun c => c != ' ' && !isBreak c
      let (handle, after) ← if word.contains '!' then c.readHandle else pure ("!", c.advance 1)
      let (suffix, after) ← after.readTagText
      return (some handle, suffix, after)
  | [] => throw .tokens

/-- Reads a tag. -/
def readTag (c : Cursor) : Except Error (Token × Cursor) := do
  let (handle, suffix, after) ← c.readTagParts
  if endsField after.rest then return (.tag handle suffix, after) else throw .tokens

/-- Reads a number of a version. -/
def readDigits (c : Cursor) : Except Error (Nat × Cursor) :=
  let digits := c.rest.takeWhile Text.isAsciiDigit
  if digits.isEmpty then .error .tokens
  else .ok (Text.asciiNat digits, c.advance digits.length)

/-- Reads what a directive with a given name says. -/
def readDirectiveValue (name : String) (c : Cursor) : Except Error (Directive × Cursor) := do
  if name == "YAML" then
    let (major, c) ← c.skipSpaces.readDigits
    if c.next? != some '.' then throw .tokens
    let (minor, c) ← (c.advance 1).readDigits
    if endsField c.rest then return (.version major minor, c) else throw .tokens
  else if name == "TAG" then
    let (handle, c) ← c.skipSpaces.readHandle
    if c.next? != some ' ' then throw .tokens
    let (expansion, c) ← c.skipSpaces.readTagText
    if endsField c.rest then return (.tagHandle handle expansion, c) else throw .tokens
  else return (.unknown, c.skipWhile (!isBreak ·))

/-- Reads a directive; the cursor is at its percent sign. -/
def readDirective (c : Cursor) : Except Error (Token × Cursor) := do
  let (name, c) ← (c.advance 1).readName
  if !endsField c.rest then throw .tokens
  let (directive, c) ← c.readDirectiveValue name
  return (.directive directive, ← c.endLine)

end Cursor

end DataContract.Yaml
