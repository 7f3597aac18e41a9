/-
# Compiled patterns

A `Pattern` is a pattern text that has been read, with the options it was read
under. Two patterns are equal when their texts and options are: the tree is
determined by both. A pattern for byte strings cannot be searched for in a text, so
of such a pattern only its text is kept, with a character for each byte.
-/

import DataContract.Pattern.Matcher
import DataContract.Pattern.Parser

set_option autoImplicit false

namespace DataContract

/-- A pattern that has been read: one for texts, or one for byte strings. -/
structure Pattern where
  source : String
  options : Pattern.Options
  tree : Pattern.Regex
  ofBytes : Bool := false
deriving Inhabited

namespace Pattern

/-- Reads a pattern text. -/
def compile (source : String) (options : Options) : Except Fault Pattern :=
  (parse source options).map fun (tree, options) => { source, options, tree }

/-- A pattern for byte strings. -/
def forBytes (source : List UInt8) (options : Options) : Pattern :=
  { source := String.ofList (source.map fun b => Char.ofNat b.toNat), options, tree := .empty
    ofBytes := true }

/-- Whether two patterns have the same text and options. -/
def same (a b : Pattern) : Bool :=
  a.source == b.source && a.options == b.options && a.ofBytes == b.ofBytes

/-- Whether a pattern matches somewhere in a text; one for byte strings does not. -/
def foundIn (p : Pattern) (s : String) : Bool := !p.ofBytes && p.tree.foundIn p.options s

end Pattern

end DataContract
