/-
# Defects of patterns

What can be wrong with a pattern text, and how it is said: the defect, the position of
the character it is about, and for a text of several lines the line and column.
-/

import DataContract.Text.Quoted

set_option autoImplicit false

namespace DataContract.Pattern

open Text

/-- What is wrong with a pattern. -/
inductive Defect where
  | danglingBackslash
  | unterminatedClass
  | badRange (low high : String)
  | nothingToRepeat
  | multipleRepeat
  | reversedRepeat
  | missingClose
  | unbalanced
  | badEscape (escape : String)
  | incompleteEscape (escape : String)
  | octalTooLarge (escape : String)
  | noSuchGroup (index : Nat)
  | openGroup
  | unknownExtension (mark : String)
  | endOfPattern
  | missingGroupName
  | unterminatedName (terminator : Char)
  | badGroupName (name : String)
  | unknownGroupName (name : String)
  | groupRedefined (name : String) (index earlier : Nat)
  | unterminatedComment
  | lateOptions
  | unknownOption
  | missingOptionEnd
  | missingOption
  | missingColon
  | clashingClasses
  | localeOption
  | fixedOption
  | optionOnAndOff
  | groupInLookBehind
  | variableLookBehind
  | badGroupNumber
  | furtherBranch
deriving DecidableEq

/-- The wording of a defect, without its position. -/
def Defect.text : Defect → String
  | .danglingBackslash => "bad escape (end of pattern)"
  | .unterminatedClass => "unterminated character set"
  | .badRange low high => "bad character range " ++ low ++ "-" ++ high
  | .nothingToRepeat => "nothing to repeat"
  | .multipleRepeat => "multiple repeat"
  | .reversedRepeat => "min repeat greater than max repeat"
  | .missingClose => "missing ), unterminated subpattern"
  | .unbalanced => "unbalanced parenthesis"
  | .badEscape escape => "bad escape " ++ escape
  | .incompleteEscape escape => "incomplete escape " ++ escape
  | .octalTooLarge escape => "octal escape value " ++ escape ++ " outside of range 0-0o377"
  | .noSuchGroup index => "invalid group reference " ++ toString index
  | .openGroup => "cannot refer to an open group"
  | .unknownExtension mark => "unknown extension ?" ++ mark
  | .endOfPattern => "unexpected end of pattern"
  | .missingGroupName => "missing group name"
  | .unterminatedName terminator =>
    "missing " ++ String.singleton terminator ++ ", unterminated name"
  | .badGroupName name => "bad character in group name " ++ quoted name
  | .unknownGroupName name => "unknown group name " ++ quoted name
  | .groupRedefined name index earlier =>
    "redefinition of group name " ++ quoted name ++ " as group " ++ toString index ++
      "; was group " ++ toString earlier
  | .unterminatedComment => "missing ), unterminated comment"
  | .lateOptions => "global flags not at the start of the expression"
  | .unknownOption => "unknown flag"
  | .missingOptionEnd => "missing -, : or )"
  | .missingOption => "missing flag"
  | .missingColon => "missing :"
  | .clashingClasses => "bad inline flags: flags 'a', 'u' and 'L' are incompatible"
  | .localeOption => "bad inline flags: cannot use 'L' flag with a str pattern"
  | .fixedOption => "bad inline flags: cannot turn off flags 'a', 'u' and 'L'"
  | .optionOnAndOff => "bad inline flags: flag turned on and off"
  | .groupInLookBehind => "cannot refer to group defined in the same lookbehind subpattern"
  | .variableLookBehind => "look-behind requires fixed-width pattern"
  | .badGroupNumber => "bad group number"
  | .furtherBranch => "conditional backref with more than two branches"

/-- Whether a defect is about one position: that a text to look back for has no fixed
width is noticed after the pattern has been read. -/
def Defect.hasPosition : Defect → Bool
  | .variableLookBehind => false
  | _ => true

/-- Why a pattern cannot be read: a defect at a position, a repetition count that is
too large to be stored, or options for the whole pattern that ask for the classes of
ASCII and for the full ones. -/
inductive Fault where
  | malformed (defect : Defect) (position : Nat)
  | countTooLarge
  | clashingOptions
deriving DecidableEq

/-- The line and column of a position, in a text of several lines. -/
def lineAndColumn (source : String) (position : Nat) : String :=
  let earlier := source.toList.take position
  let line := (earlier.filter (· == '\n')).length + 1
  let column := (earlier.reverse.takeWhile (· != '\n')).length + 1
  " (line " ++ toString line ++ ", column " ++ toString column ++ ")"

/-- The wording of a malformed pattern: the defect, its position, and its line and
column if the pattern has several lines. -/
def malformedText (source : String) (defect : Defect) (position : Nat) : String :=
  defect.text ++
    if defect.hasPosition then
      " at position " ++ toString position ++
        if source.contains '\n' then lineAndColumn source position else ""
    else ""

end DataContract.Pattern
