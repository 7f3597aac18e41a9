/-
# Reading positions in a document

A cursor is the rest of a document with the place where it begins. Lines end with
a line feed, a next-line character or one of the two Unicode separators; other
ways of ending a line are unified before a document is read. A byte order mark
takes no room on its line.
-/

import DataContract.Text.Digit

set_option autoImplicit false

namespace DataContract.Yaml

/-- Why a scalar is no value of its kind: the text of a numeral cannot be read or a field
of a date is not real, there are no digits, a word is no truth value, a text has not
the form of a date, or a code point is none. -/
inductive ScalarFault where
  | malformed (message : String)
  | noDigits
  | noTruthValue
  | noDate
  | noCharacter
deriving DecidableEq

/-- Why a document cannot be read: its characters do not form tokens, its tokens do
not form nodes, its anchors or documents are not in order, its nodes have no
meaning, a scalar is no value of its kind, or it holds a character that no document
may hold. -/
inductive Error where
  | tokens
  | grammar
  | structural
  | meaning
  | scalar (fault : ScalarFault)
  | character (c : Char) (index : Nat)
deriving DecidableEq

/-- Whether a character ends a line. -/
def isBreak (c : Char) : Bool := c == '\n' || c == '\x85' || c == '\u2028' || c == '\u2029'

/-- What the end of a line stands for: the separators for themselves, all others for
a line feed. -/
def breakText (c : Char) : Char := if c == '\x85' then '\n' else c

/-- Whether a character is a space or a tabulator. -/
def isSpace (c : Char) : Bool := c == ' ' || c == '\t'

/-- Whether a line ends here. -/
def endsLine : List Char → Bool
  | [] => true
  | c :: _ => isBreak c

/-- Whether a line or a field before a space ends here. -/
def endsField : List Char → Bool
  | [] => true
  | c :: _ => c == ' ' || isBreak c

/-- Whether a word ends here. -/
def endsWord : List Char → Bool
  | [] => true
  | c :: _ => isSpace c || isBreak c

/-- Whether a text begins with the line that separates two documents. -/
def startsSeparator : List Char → Bool
  | '-' :: '-' :: '-' :: rest => endsWord rest
  | '.' :: '.' :: '.' :: rest => endsWord rest
  | _ => false

/-- A place in a document. -/
structure Position where
  index : Nat
  line : Nat
  column : Nat
deriving DecidableEq, Inhabited

/-- The place after a character. -/
def Position.after (p : Position) (c : Char) : Position :=
  if isBreak c then ⟨p.index + 1, p.line + 1, 0⟩
  else if c == '\uFEFF' then ⟨p.index + 1, p.line, p.column⟩
  else ⟨p.index + 1, p.line, p.column + 1⟩

/-- The rest of a document. -/
structure Cursor where
  position : Position
  rest : List Char
deriving Inhabited

namespace Cursor

/-- The beginning of a document. -/
def start (cs : List Char) : Cursor := ⟨⟨0, 0, 0⟩, cs⟩

/-- The column of a cursor. -/
def column (c : Cursor) : Nat := c.position.column

/-- The next character. -/
def next? (c : Cursor) : Option Char := c.rest.head?

/-- The cursor after the first characters of a text. -/
def advanceIn : Nat → Position → List Char → Cursor
  | n + 1, p, c :: rest => advanceIn n (p.after c) rest
  | _, p, rest => ⟨p, rest⟩

/-- The cursor after some characters. -/
def advance (c : Cursor) (n : Nat) : Cursor := advanceIn n c.position c.rest

/-- The cursor after the characters of a text for which `skips` holds. -/
def skipIn (skips : Char → Bool) : Position → List Char → Cursor
  | p, c :: rest => if skips c then skipIn skips (p.after c) rest else ⟨p, c :: rest⟩
  | p, [] => ⟨p, []⟩

/-- The cursor after the next characters for which `skips` holds. -/
def skipWhile (c : Cursor) (skips : Char → Bool) : Cursor := skipIn skips c.position c.rest

/-- The cursor after the spaces that follow. -/
def skipSpaces (c : Cursor) : Cursor := c.skipWhile (· == ' ')

/-- The cursor after a comment, if one follows. -/
def skipComment (c : Cursor) : Cursor :=
  if c.next? == some '#' then c.skipWhile (!isBreak ·) else c

/-- The cursor after the end of the line, which has to follow, apart from spaces and
a comment. -/
def endLine (c : Cursor) : Except Error Cursor :=
  let atEnd := c.skipSpaces.skipComment
  if endsLine atEnd.rest then .ok (atEnd.advance 1) else .error .tokens

end Cursor

/-- Whether a character can stand in the name of an anchor, a tag handle or a
directive. -/
def isNameChar (c : Char) : Bool :=
  Text.isAsciiDigit c || ('A' ≤ c && c ≤ 'Z') || ('a' ≤ c && c ≤ 'z') || c == '-' || c == '_'

/-- Whether a document may hold a character. -/
def isAdmitted (c : Char) : Bool :=
  let n := c.toNat
  n == 0x09 || n == 0x0A || n == 0x0D || (0x20 ≤ n && n ≤ 0x7E) || n == 0x85 ||
    (0xA0 ≤ n && n ≤ 0xFFFD) || 0x10000 ≤ n

/-- The characters of a text in which every line ends in one way: a carriage return,
alone or before a line feed, is a line feed. -/
def unifyBreaks : List Char → List Char
  | '\r' :: '\n' :: rest => '\n' :: unifyBreaks rest
  | '\r' :: rest => '\n' :: unifyBreaks rest
  | c :: rest => c :: unifyBreaks rest
  | [] => []

end DataContract.Yaml
