/-
# Patterns over text

The tree that a pattern denotes and the options it is read with. A pattern
matches anywhere in a text; `Regex` is matched at a position and the options are
the same for all of it.
-/

set_option autoImplicit false

namespace DataContract

namespace Pattern

/-- The options of a pattern: ASCII classes only, case ignored, anchors at every
line, points that match line ends, and blanks and comments skipped. -/
structure Options where
  ascii : Bool := false
  ignoreCase : Bool := false
  multiline : Bool := false
  dotAll : Bool := false
  verbose : Bool := false
deriving DecidableEq, Inhabited

/-- The letters of the options, in the order in which they are shown. -/
def Options.letters (o : Options) : String :=
  String.ofList <|
    (if o.ascii then ['a'] else []) ++ (if o.ignoreCase then ['i'] else []) ++
    (if o.multiline then ['m'] else []) ++ (if o.dotAll then ['s'] else []) ++
    (if o.verbose then ['x'] else [])

/-- Switches one option on by its letter. -/
def Options.add? (o : Options) : Char → Option Options
  | 'a' => some { o with ascii := true }
  | 'i' => some { o with ignoreCase := true }
  | 'm' => some { o with multiline := true }
  | 's' => some { o with dotAll := true }
  | 'x' => some { o with verbose := true }
  | _ => none

/-- Whether two sets of options have one in common. -/
def Options.meets (a b : Options) : Bool :=
  a.ascii && b.ascii || a.ignoreCase && b.ignoreCase || a.multiline && b.multiline ||
    a.dotAll && b.dotAll || a.verbose && b.verbose

/-- A change of the options for a part of a pattern: those switched on and off, and
whether the full classes are asked for instead of those of ASCII. -/
structure Scope where
  on : Options := {}
  full : Bool := false
  off : Options := {}
deriving DecidableEq

/-- The options inside a part of a pattern. -/
def Scope.within (s : Scope) (o : Options) : Options where
  ascii := s.on.ascii || o.ascii && !s.full
  ignoreCase := (s.on.ignoreCase || o.ignoreCase) && !s.off.ignoreCase
  multiline := (s.on.multiline || o.multiline) && !s.off.multiline
  dotAll := (s.on.dotAll || o.dotAll) && !s.off.dotAll
  verbose := (s.on.verbose || o.verbose) && !s.off.verbose

/-- The named classes of characters. -/
inductive Category where
  | digit
  | blank
  | word
deriving DecidableEq

/-- A member of a class of characters. -/
inductive ClassItem where
  | char (code : Nat)
  | range (low high : Nat)
  | category (c : Category) (negated : Bool)
deriving DecidableEq

/-- The assertions about a position. -/
inductive Anchor where
  | lineStart
  | lineEnd
  | textStart
  | textEnd
  | wordBoundary
  | noWordBoundary
deriving DecidableEq

/-- What a repetition prefers: to match more, to match less, or to match more and
keep what it has taken. -/
inductive Preference where
  | more
  | less
  | keep
deriving DecidableEq

/-- How often a repetition may match, and what it prefers. -/
structure Times where
  least : Nat
  most : Option Nat
  prefers : Preference
deriving DecidableEq

/-- The tree of a pattern. An assertion about the text around a position begins a
number of characters before it, none for one about the text that follows. -/
inductive Regex where
  | empty
  | any
  | set (negated : Bool) (items : List ClassItem)
  | anchor (a : Anchor)
  | group (index : Option Nat) (body : Regex)
  | backref (index : Nat)
  | look (back : Nat) (wanted : Bool) (body : Regex)
  | atomic (body : Regex)
  | scoped (scope : Scope) (body : Regex)
  | ifGroup (index : Nat) (present absent : Regex)
  | seq (first second : Regex)
  | alt (first second : Regex)
  | repeated (times : Times) (body : Regex)
deriving DecidableEq, Inhabited

/-- A single character as a pattern. -/
def Regex.char (code : Nat) : Regex := .set false [.char code]

/-- Patterns one after another. -/
def Regex.sequence : List Regex → Regex
  | [] => .empty
  | [r] => r
  | r :: rest => .seq r (Regex.sequence rest)

/-- One pattern or another, the earlier ones first. -/
def Regex.choice : List Regex → Regex
  | [] => .empty
  | [r] => r
  | r :: rest => .alt r (Regex.choice rest)

/-- The least and the greatest number of characters that a part of a pattern takes. -/
structure Width where
  least : Nat
  most : Nat
deriving DecidableEq

/-- A width that no text has, for parts without a greatest number of characters. -/
def Width.unbounded : Nat := 0x10000000000000000

/-- How much a pattern takes, when groups take as much as given. -/
def Regex.width (groups : List (Nat × Width)) : Regex → Width
  | .empty | .anchor _ | .look .. => ⟨0, 0⟩
  | .any | .set .. => ⟨1, 1⟩
  | .group _ body | .atomic body | .scoped _ body => body.width groups
  | .backref index => (groups.lookup index).getD ⟨0, 0⟩
  | .seq first second =>
    let a := first.width groups
    let b := second.width groups
    ⟨a.least + b.least, a.most + b.most⟩
  | .alt first second | .ifGroup _ first second =>
    let a := first.width groups
    let b := second.width groups
    ⟨min a.least b.least, max a.most b.most⟩
  | .repeated times body =>
    let each := body.width groups
    ⟨times.least * each.least,
      match times.most with
      | some most => most * each.most
      | none => if each.most = 0 then 0 else Width.unbounded⟩

end Pattern

end DataContract
