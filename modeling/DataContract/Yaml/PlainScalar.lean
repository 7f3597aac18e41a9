/-
# Plain scalars

A scalar without quotes ends before a colon or a comment, at the indicators of
flow collections if it stands in one, and where a line is not indented deeper than
the block that holds it. Its line breaks are folded like those of quoted scalars.
-/

import DataContract.Yaml.QuotedScalar

set_option autoImplicit false

namespace DataContract.Yaml

/-- Where the reader of a plain scalar stands: in a word, after spaces, or after a
line break with the breaks of the empty lines since then. -/
inductive PlainMode where
  | word
  | gap (spaces : Nat)
  | lines (ending : Char) (breaks : List Char)

/-- A plain scalar, where it ends, and whether a line break was passed after its last
word. -/
structure PlainScalar where
  text : String
  cursor : Cursor
  brokeLine : Bool

/-- The indicators that end a plain scalar in a flow collection. -/
def isFlowIndicator (c : Char) : Bool :=
  c == ',' || c == '[' || c == ']' || c == '\x7b' || c == '\x7d'

/-- Whether a plain scalar ends before a character that is followed by `rest`. -/
def endsPlain (flow : Bool) (c : Char) (rest : List Char) : Bool :=
  isSpace c || isBreak c ||
    (c == ':' && (endsWord rest || (flow && rest.head?.any isFlowIndicator))) ||
    (flow && (c == '?' || isFlowIndicator c))

/-- Whether a word of a plain scalar can go on after a gap. -/
def resumesPlain (flow : Bool) (c : Char) (rest : List Char) : Bool :=
  c != '#' && !endsPlain flow c rest

/-- Reads a plain scalar; lines of a block have to begin at column `indent` or after
it. `out` is what has been read, the latest character first. -/
def readPlainIn (flow : Bool) (indent : Nat) :
    PlainMode → List Char → Position → List Char → PlainScalar
  | mode, out, p, [] => ⟨String.ofList out.reverse, ⟨p, []⟩, mode matches .lines ..⟩
  | mode, out, p, c :: rest =>
    let here : Bool → PlainScalar := fun broke => ⟨String.ofList out.reverse, ⟨p, c :: rest⟩, broke⟩
    let passBreak (ending : Char) (breaks : List Char) : PlainScalar :=
      if startsSeparator rest then ⟨String.ofList out.reverse, ⟨p.after c, rest⟩, true⟩
      else readPlainIn flow indent (.lines ending breaks) out (p.after c) rest
    match mode with
    | .word =>
      if c == ' ' then readPlainIn flow indent (.gap 1) out (p.after c) rest
      else if isBreak c then passBreak (breakText c) []
      else if endsPlain flow c rest then here false
      else readPlainIn flow indent .word (c :: out) (p.after c) rest
    | .gap spaces =>
      if c == ' ' then readPlainIn flow indent (.gap (spaces + 1)) out (p.after c) rest
      else if isBreak c then passBreak (breakText c) []
      else if resumesPlain flow c rest then
        readPlainIn flow indent .word (c :: (List.replicate spaces ' ' ++ out)) (p.after c) rest
      else here false
    | .lines ending breaks =>
      if c == ' ' then readPlainIn flow indent mode out (p.after c) rest
      else if isBreak c then passBreak ending (breakText c :: breaks)
      else if resumesPlain flow c rest && (flow || indent ≤ p.column) then
        readPlainIn flow indent .word (c :: foldBreak (some ending) breaks out) (p.after c) rest
      else here true

/-- Reads a plain scalar in a block that is indented by less than `indent`. -/
def readPlain (flow : Bool) (indent : Nat) (c : Cursor) : PlainScalar :=
  readPlainIn flow indent .word [] c.position c.rest

end DataContract.Yaml
