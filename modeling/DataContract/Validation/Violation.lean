/-
# Violations

A violation names a property and says what is wrong with it. The violations of a
nested record are folded into one violation of the property that holds the
record; it keeps their messages in order, each with its property reference
prefixed.
-/

import DataContract.Fault
import DataContract.Value.Text

set_option autoImplicit false

namespace DataContract

/-- What a violation says: a text, or the parts of a folded violation. The parts
are texts unless a rule's message override says otherwise. -/
inductive Message where
  | text (s : String)
  | folded (parts : List Value)

/-- The message that a value stands for: a text as it is, anything else by its
elements. -/
def Message.ofValue : Value → Except Fault Message
  | .text s => .ok (.text s)
  | v =>
    match v.elements? with
    | some parts => .ok (.folded parts)
    | none => .error .messageWithoutParts

/-- What is wrong with a property. -/
structure Violation where
  key : Value
  message : Message

/-- The messages of a violation. -/
def Violation.messages (v : Violation) : List Value :=
  match v.message with
  | .text s => [.text s]
  | .folded parts => parts

/-- The messages of some violations, in order. -/
def flattenMessages (violations : List Violation) : List Value :=
  violations.flatMap Violation.messages

/-- The text after which a message names its property. -/
def propertyMark : List Char := "roperty ".toList

/-- Inserts a text after the first occurrence of a mark. -/
def insertAfterFirst (mark insertion : List Char) : List Char → List Char
  | [] => []
  | c :: rest =>
    if mark.isPrefixOf (c :: rest) then mark ++ insertion ++ (c :: rest).drop mark.length
    else c :: insertAfterFirst mark insertion rest

/-- Prefixes the first property reference of a message with a key and a point. -/
def prefixMessage (message : String) (key : Value) : String :=
  String.ofList
    (insertAfterFirst propertyMark (key.shown.toList ++ ['.']) message.toList)

/-- Whether a token names a type of values with replacements. -/
def TypeToken.hasReplacement : TypeToken → Bool
  | .text | .bytes | .date | .moment => true
  | _ => false

/-- Prefixes the property reference of one message of a nested record. Only texts
have one; days, moments, byte strings and the types of these have replacements of
another sort. -/
def prefixPart (key : Value) : Value → Except Fault Value
  | .text s => .ok (.text (prefixMessage s key))
  | .date _ | .moment _ | .bytes _ => .error .messageNotReplaceable
  | .callable (.token t) =>
    .error (if t.hasReplacement then .messageNotReplaceable else .messageWithoutText)
  | _ => .error .messageWithoutText

/-- Folds the messages of a nested record into one message. -/
def foldMessages (key : Value) (messages : List Value) : Except Fault Message :=
  (messages.mapM (prefixPart key)).map .folded

/-- The message for a value of the wrong category. -/
def mismatchText (key v : Value) (expected : String) : String :=
  "Property " ++ key.shown ++ " is " ++ v.category ++ ", expected " ++ expected

/-- The message for a key that the schema does not declare. -/
def undeclaredText (key : Value) : String :=
  "Property " ++ key.shown ++ " not valid in schema"

/-- The message for a required property that is absent. -/
def missingText (key : Value) : String := "Missing required property " ++ key.shown

/-- The message for data that is no mapping. -/
def notARecordText : String :=
  "Data passed to validate is incorrect. It must be an object."

/-- The violation for data that is no mapping; it is about no property. -/
def Violation.notARecord : Violation := ⟨.text "", .text notARecordText⟩

end DataContract
