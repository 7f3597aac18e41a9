/-
# Checks of single values

What a rule asks of a value beyond being present, for each kind of value without
parts, and the length bounds of arrays. Every constraint is judged on its own, so
one value can fail several of them.
-/

import DataContract.Value.DateText
import DataContract.Value.Entries
import DataContract.Value.Uuid
import DataContract.Validation.Violation

set_option autoImplicit false

namespace DataContract

/-- Whether a value has the shape of a scalar kind. -/
def Scalar.fits : Scalar → Value → Except Fault Bool
  | .text, .text _ => .ok true
  | .number, v => .ok v.isNumber
  | .boolean, .bool _ => .ok true
  | .object, v => .ok v.isMapping
  | .function, v => .ok v.isCallable
  | .date, v => v.isDate
  | .uuid version, .text s => .ok (Uuid.accepts version s)
  | _, _ => .ok false

/-- Whether a value has the shape of a type. Only the outermost shape is looked at:
any mapping may be a nested record, and any list or tuple an array. -/
def TypeSpec.fitsShape : TypeSpec → Value → Except Fault Bool
  | .scalar s, v => s.fits v
  | .nested _, v => .ok v.isMapping
  | .array _, v => .ok v.isArray

/-- A message if a condition holds. -/
def failureIf (condition : Bool) (message : String) : List String :=
  if condition then [message] else []

/-- Whether a number lies below a lower bound. -/
def belowMin (min : Option Number) (n : Number) : Bool := min.any n.lt

/-- Whether a number lies above an upper bound. -/
def aboveMax (max : Option Number) (n : Number) : Bool := max.any (·.lt n)

/-- The text of a bound. -/
def boundText (bound : Option Number) : String := (bound.map Number.text).getD ""

namespace Rule

/-- The failures of a text: accepted values, pattern, and length. -/
def textFailures (r : Rule) (key : Value) (s : String) : List String :=
  let length := Number.int s.length
  failureIf (r.choices.any fun choices => !choices.any (·.equal (.text s)))
    ("Value of property " ++ key.shown ++ " does not contain an acceptable value") ++
  failureIf (r.pattern.any fun p => !p.foundIn s)
    ("Regex validation failed for property " ++ key.shown) ++
  failureIf (belowMin r.min length)
    ("Property " ++ key.shown ++ " must contain at least " ++ boundText r.min ++ " characters") ++
  failureIf (aboveMax r.max length)
    ("Property " ++ key.shown ++ " must contain less than " ++ boundText r.max ++ " characters")

/-- The failures of a number: its bounds. -/
def numberFailures (r : Rule) (key : Value) (n : Number) : List String :=
  failureIf (belowMin r.min n)
    ("Property " ++ key.shown ++ " must be greater than " ++ boundText r.min) ++
  failureIf (aboveMax r.max n)
    ("Property " ++ key.shown ++ " must be less than " ++ boundText r.max)

/-- The failures of an array's length. -/
def lengthFailures (r : Rule) (key : Value) (count : Nat) : List String :=
  failureIf (belowMin r.min (.int count))
    ("Property " ++ key.shown ++ " must contain at least " ++ boundText r.min ++ " elements") ++
  failureIf (aboveMax r.max (.int count))
    ("Property " ++ key.shown ++ " must contain no more than " ++ boundText r.max ++ " elements")

/-- Whether a rule asks for a pattern that cannot be searched for in a text. -/
def hasBytesPattern (r : Rule) : Bool := r.pattern.any (·.ofBytes)

/-- The failures of a value of a scalar kind. -/
def scalarFailures (r : Rule) (key : Value) (s : Scalar) (v : Value) :
    Except Fault (List String) :=
  match s with
  | .text =>
    match v with
    | .text t => if r.hasBytesPattern then .error .patternOfBytes else .ok (r.textFailures key t)
    | _ => .ok [mismatchText key v s.label]
  | .number =>
    match v.number? with
    | some n => .ok (r.numberFailures key n)
    | none => .ok [mismatchText key v s.label]
  | .boolean | .object | .function =>
    (s.fits v).map fun ok => failureIf (!ok) (mismatchText key v s.label)
  | .date =>
    (s.fits v).map fun ok =>
      failureIf (!ok) ("Property " ++ key.shown ++ " is not a valid date")
  | .uuid _ =>
    (s.fits v).map fun ok =>
      failureIf (!ok) ("Property " ++ key.shown ++ " is not a valid " ++ s.label)

end Rule

/-- The message for an array with an item that does not match. -/
def itemText (key : Value) (item : TypeSpec) : String :=
  let start := "An item in array of property " ++ key.shown ++ " is not valid"
  match item with
  | .nested _ => start
  | _ => start ++ ". All items must be of type " ++ item.kind.label

end DataContract
