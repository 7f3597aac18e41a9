/-
# Errors of declarations

Why a declaration is refused. An error inside a nested declaration is wrapped
once for each nested mapping on the way to it, so the chain of causes names the
properties from the outside in.
-/

import DataContract.Value.Text

set_option autoImplicit false

namespace DataContract

/-- The two bounds of a rule. -/
inductive Bound where
  | min
  | max
deriving DecidableEq

/-- The name of a bound. -/
def Bound.label : Bound → String
  | .min => "min"
  | .max => "max"

/-- Why a declaration is refused. -/
inductive SchemaError where
  | notAMapping (found : String)
  | nested (key : Value) (cause : SchemaError)
  | textOptionsOnly (key : Value)
  | patternExpected (key : Value)
  | choicesNotAList (key : Value)
  | boundNotANumber (key : Value) (bound : Bound)
  | customNotCallable (key : Value) (category : String)
  | severalItemTypes (key : Value)
  | unsupportedType (key : Value) (name : String)
  | malformedPattern (key : Value) (source : String) (defect : Pattern.Defect) (position : Nat)
  | patternCountTooLarge
  | patternOptionsClash
  | endless

namespace SchemaError

/-- The beginning of the errors about an option of a property. -/
def invalidFor (key : Value) : String := "Invalid schema for " ++ key.shown

/-- The wording of an error, without its causes. -/
def message : SchemaError → String
  | .notAMapping found => "Schema declaration must be a mapping, got " ++ found
  | .nested key _ => "Could not parse property " ++ key.shown ++ " as schema"
  | .textOptionsOnly key => invalidFor key ++ ": regex and enum can be set only for strings"
  | .patternExpected key => invalidFor key ++ ": regex must be an instance of re.Pattern"
  | .choicesNotAList key => invalidFor key ++ ": enum must be a list of values"
  | .boundNotANumber key bound =>
    invalidFor key ++ ": " ++ bound.label ++ " property must be a number"
  | .customNotCallable key category =>
    "Custom validator for " ++ key.shown ++ " must be a function, was " ++ category
  | .severalItemTypes key =>
    invalidFor key ++ ". Array items must be declared of any type, or just one type: [str], [int]"
  | .unsupportedType key name => "Unsupported type on " ++ key.shown ++ ": " ++ name
  | .malformedPattern key source defect position =>
    invalidFor key ++ ": bad regex " ++ Text.quoted source ++ ": " ++
      Pattern.malformedText source defect position
  | .patternCountTooLarge => "the repetition number is too large"
  | .patternOptionsClash => "ASCII and UNICODE flags are incompatible"
  | .endless => "maximum recursion depth exceeded"

/-- Whether an error is of another kind than those that a declaration is refused with: a
repetition count, options of a pattern, or a declaration without an end. -/
def isForeign : SchemaError → Bool
  | .patternCountTooLarge | .patternOptionsClash | .endless => true
  | _ => false

end SchemaError

/-- What an error was caused by: an error of a nested declaration, or a pattern that
cannot be read. -/
inductive SchemaError.Cause where
  | declaration (message : String)
  | pattern (text : String)

/-- The causes of an error, the nearest first. -/
def SchemaError.causes : SchemaError → List SchemaError.Cause
  | .nested _ cause => .declaration cause.message :: cause.causes
  | .malformedPattern _ source defect position =>
    [.pattern (Pattern.malformedText source defect position)]
  | _ => []

end DataContract
