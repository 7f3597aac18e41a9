/-
# Matching a pattern

The matcher tries alternatives in their order and repetitions by preference, and
comes back to the next possibility when what follows does not match: what
follows is a continuation, so the recursion is on the pattern. Only a repetition
needs a bound of its own; after its least number of rounds each further round
starts at a later position than the one before, so what is left of the text
bounds them.
-/

import DataContract.Pattern.Tree
import DataContract.Text.Blank
import DataContract.Text.CaseFold
import DataContract.Text.Digit
import DataContract.Text.Letter

set_option autoImplicit false

namespace DataContract.Pattern

open Text

/-- A position in a text, and the texts of the groups that have matched so far. -/
structure Position where
  before : List Char
  rest : List Char
  groups : List (Nat × List Char)

/-- What is asked of the text after a position. -/
abbrev Continuation := Position → Option Position

/-- Membership in a named class. -/
def Category.has (ascii : Bool) : Category → Char → Bool
  | .digit, c => if ascii then isAsciiDigit c else isDigit c
  | .blank, c => if ascii then [' ', '\t', '\n', '\r', '\x0b', '\x0c'].contains c else isBlank c
  | .word, c => if ascii then isAsciiWord c else isWord c

/-- The lower-case form of a character where case is ignored. -/
def Options.lower (o : Options) (c : Char) : Nat :=
  if !o.ignoreCase then c.toNat
  else if o.ascii then c.toLower.toNat
  else lowerCode c.toNat

/-- The code points that a character stands for: itself, and those equal to it up
to case where case is ignored. -/
def Options.variants (o : Options) (c : Char) : List Nat :=
  if !o.ignoreCase then [c.toNat]
  else if o.ascii then asciiCaseVariants c.toNat
  else caseVariants c.toNat

/-- Whether a member of a class takes a character: as one of the code points that the
character stands for, or by the named class of its lower-case form. -/
def ClassItem.has (o : Options) (c : Char) : ClassItem → Bool
  | .char own => (o.variants c).contains own
  | .range low high => (o.variants c).any fun code => low ≤ code && code ≤ high
  | .category named negated => named.has o.ascii (Char.ofNat (o.lower c)) != negated

/-- Whether a class of characters takes a character. -/
def Options.takes (o : Options) (negated : Bool) (items : List ClassItem) (c : Char) : Bool :=
  items.any (·.has o c) != negated

/-- Whether two characters are the same under the options. -/
def Options.same (o : Options) (a b : Char) : Bool := o.lower a == o.lower b

/-- Whether a word begins or ends at a position. -/
def Options.atBoundary (o : Options) (p : Position) : Bool :=
  p.before.head?.any (Category.word.has o.ascii) != p.rest.head?.any (Category.word.has o.ascii)

/-- Whether an assertion holds at a position. In an empty text no position counts
as a word boundary, nor as the lack of one. -/
def Options.holds (o : Options) (p : Position) : Anchor → Bool
  | .lineStart => p.before.isEmpty || (o.multiline && p.before.head? == some '\n')
  | .lineEnd =>
    p.rest.isEmpty || p.rest == ['\n'] || (o.multiline && p.rest.head? == some '\n')
  | .textStart => p.before.isEmpty
  | .textEnd => p.rest.isEmpty
  | .wordBoundary => o.atBoundary p
  | .noWordBoundary => !(p.before.isEmpty && p.rest.isEmpty) && !o.atBoundary p

/-- Takes one character that passes a test. -/
def Position.take (p : Position) (test : Char → Bool) (k : Continuation) : Option Position :=
  match p.rest with
  | c :: rest => if test c then k { p with before := c :: p.before, rest := rest } else none
  | [] => none

/-- Takes the text of an earlier group once more. -/
def Position.takeAgain (same : Char → Char → Bool) : List Char → Position → Option Position
  | [], p => some p
  | c :: more, p => p.take (same c) (takeAgain same more)

/-- The position a number of characters earlier. -/
def Position.back? : Nat → Position → Option Position
  | 0, p => some p
  | count + 1, p =>
    match p.before with
    | c :: before => back? count { p with before, rest := c :: p.rest }
    | [] => none

/-- Records what a group has matched since the position `start`. -/
def Position.record (p : Position) (index : Nat) (start : Position) : Position :=
  { p with
    groups := (index, start.rest.take (start.rest.length - p.rest.length)) :: p.groups }

/-- Runs the rounds of a repetition: `count` rounds are done and the last one
started where `last` characters were left. A round that would start where the
last one did is not tried again once the least number is reached. -/
def rounds (times : Times) (body : Position → Continuation → Option Position)
    (k : Continuation) : Nat → Nat → Option Nat → Position → Option Position
  | 0, _, _, p => k p
  | bound + 1, count, last, p =>
    let again (last : Option Nat) : Option Position :=
      body p (rounds times body k bound (count + 1) last)
    if count < times.least then again last
    else
      let more := times.most.all (count < ·) && last != some p.rest.length
      if times.prefers = .less then
        match k p with
        | some found => some found
        | none => if more then again (some p.rest.length) else none
      else
        match (if more then again (some p.rest.length) else none) with
        | some found => some found
        | none => k p

/-- Matches a pattern at a position and asks `k` about the text after it. -/
def Regex.run (o : Options) : Regex → Position → Continuation → Option Position
  | .empty, p, k => k p
  | .any, p, k => p.take (fun c => o.dotAll || c != '\n') k
  | .set negated items, p, k => p.take (o.takes negated items) k
  | .anchor a, p, k => if o.holds p a then k p else none
  | .group none body, p, k => body.run o p k
  | .group (some index) body, p, k => body.run o p fun q => k (q.record index p)
  | .backref index, p, k =>
    match p.groups.lookup index with
    | none => none
    | some own => (p.takeAgain o.same own).bind k
  | .look back wanted body, p, k =>
    match (p.back? back).bind fun earlier => body.run o earlier some, wanted with
    | some found, true => k { p with groups := found.groups }
    | none, false => k p
    | _, _ => none
  | .atomic body, p, k => (body.run o p some).bind k
  | .scoped scope body, p, k => body.run (scope.within o) p k
  | .ifGroup index present absent, p, k =>
    if (p.groups.lookup index).isSome then present.run o p k else absent.run o p k
  | .seq first second, p, k => first.run o p fun q => second.run o q k
  | .alt first second, p, k =>
    match first.run o p k with
    | some found => some found
    | none => second.run o p k
  | .repeated times body, p, k =>
    let bound := times.least + p.rest.length + 2
    if times.prefers = .keep then (rounds times (body.run o) some bound 0 none p).bind k
    else rounds times (body.run o) k bound 0 none p

/-- Whether a pattern matches at a position or later. -/
def Regex.foundFrom (o : Options) (r : Regex) : List Char → List Char → Bool
  | before, [] => (r.run o ⟨before, [], []⟩ some).isSome
  | before, c :: rest =>
    (r.run o ⟨before, c :: rest, []⟩ some).isSome || foundFrom o r (c :: before) rest

/-- Whether a pattern matches somewhere in a text. -/
def Regex.foundIn (o : Options) (r : Regex) (s : String) : Bool := r.foundFrom o [] s.toList

end DataContract.Pattern
