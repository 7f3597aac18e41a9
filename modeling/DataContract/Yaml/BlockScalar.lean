/-
# Block scalars

A literal scalar keeps its lines; a folded one joins them. The header may fix the
indentation, which is otherwise that of the first line with content, and say what
becomes of the line breaks at the end.
-/

import DataContract.Yaml.QuotedScalar

set_option autoImplicit false

namespace DataContract.Yaml

/-- What becomes of the line breaks at the end of a block scalar: all are dropped, one
is kept, or all are kept. -/
inductive Chomping where
  | strip
  | clip
  | keep

/-- The chomping that a sign in a header asks for. -/
def Chomping.ofSign? : Char → Option Chomping
  | '+' => some .keep
  | '-' => some .strip
  | _ => none

/-- The digit of a header that fixes the indentation. Zero is refused. -/
def headerDigit : List Char → Except Error (Option Nat)
  | c :: _ =>
    if c == '0' then .error .tokens
    else .ok (if Text.isAsciiDigit c then some (c.toNat - '0'.toNat) else none)
  | [] => .ok none

/-- Reads the sign and the digit of a header, in either order. -/
def readHeader (c : Cursor) : Except Error (Chomping × Option Nat × Cursor) := do
  let sign (c : Cursor) := c.next?.bind Chomping.ofSign?
  match sign c with
  | some chomping =>
    let c := c.advance 1
    match ← headerDigit c.rest with
    | some digit => finish chomping (some digit) (c.advance 1)
    | none => finish chomping none c
  | none =>
    match ← headerDigit c.rest with
    | none => finish .clip none c
    | some digit =>
      let c := c.advance 1
      match sign c with
      | some chomping => finish chomping (some digit) (c.advance 1)
      | none => finish .clip (some digit) c
where
  /-- The header has to end here. -/
  finish (chomping : Chomping) (digit : Option Nat) (c : Cursor) :
      Except Error (Chomping × Option Nat × Cursor) :=
    if endsField c.rest then (c.endLine).map (chomping, digit, ·) else .error .tokens

/-- Where the reader of a block scalar stands: before the first line with content, with
the deepest indentation so far; at the beginning of a line; or in a line. -/
inductive BlockMode where
  | detect (deepest : Nat)
  | margin (indent : Nat)
  | line (indent : Nat)

/-- What has been read of a block scalar, the latest first: the text, the break at the
end of the last line, the breaks of the empty lines after it, and whether the last
line began with something other than a space. -/
structure BlockText where
  out : List Char
  ending : Option Char
  breaks : List Char
  solid : Bool

namespace BlockText

/-- Begins a line with a character. A folded break between two solid lines becomes a
space, or nothing before empty lines. -/
def beginLine (folded : Bool) (t : BlockText) (c : Char) : BlockText :=
  let solid := !isSpace c
  let joined :=
    if folded && t.ending == some '\n' && t.solid && solid then
      if t.breaks.isEmpty then ' ' :: t.out else t.out
    else t.ending.toList ++ t.out
  ⟨c :: (t.breaks ++ joined), none, [], solid⟩

/-- The text with what is kept of the line breaks at its end. -/
def chomp (t : BlockText) : Chomping → List Char
  | .strip => t.out
  | .clip => t.ending.toList ++ t.out
  | .keep => t.breaks ++ t.ending.toList ++ t.out

end BlockText

/-- Reads the lines of a block scalar that are indented by `least` or more. -/
def readLinesIn (folded : Bool) (least : Nat) :
    BlockMode → BlockText → Position → List Char → BlockText × Cursor
  | _, t, p, [] => (t, ⟨p, []⟩)
  | mode, t, p, c :: rest =>
    let stop := (t, (⟨p, c :: rest⟩ : Cursor))
    let emptyLine : BlockText := { t with breaks := breakText c :: t.breaks }
    let enter (indent : Nat) : BlockText × Cursor :=
      if p.column == indent then
        readLinesIn folded least (.line indent) (t.beginLine folded c) (p.after c) rest
      else stop
    match mode with
    | .detect deepest =>
      if c == ' ' then
        readLinesIn folded least (.detect (max deepest (p.column + 1))) t (p.after c) rest
      else if isBreak c then readLinesIn folded least mode emptyLine (p.after c) rest
      else enter (max least deepest)
    | .margin indent =>
      if c == ' ' && p.column < indent then readLinesIn folded least mode t (p.after c) rest
      else if isBreak c then readLinesIn folded least mode emptyLine (p.after c) rest
      else enter indent
    | .line indent =>
      if isBreak c then
        readLinesIn folded least (.margin indent) { t with ending := some (breakText c) }
          (p.after c) rest
      else readLinesIn folded least mode { t with out := c :: t.out } (p.after c) rest

/-- Reads a block scalar in a block that is indented by less than `least`; the cursor is
at its indicator. -/
def readBlock (folded : Bool) (least : Nat) (c : Cursor) : Except Error (String × Cursor) := do
  let (chomping, digit, body) ← readHeader (c.advance 1)
  let least := max least 1
  let mode := match digit with
    | some n => BlockMode.margin (least + n - 1)
    | none => .detect 0
  let (text, after) := readLinesIn folded least mode ⟨[], none, [], false⟩ body.position body.rest
  return (String.ofList (text.chomp chomping).reverse, after)

end DataContract.Yaml
