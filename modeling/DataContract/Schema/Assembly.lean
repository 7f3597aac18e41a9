/-
# Types and rules from parts

A type is put together from a kind, a schema and an item type; a rule from a type
and its options. Not every combination is one: a nested record needs its schema,
only arrays have items, and only texts have a pattern or accepted values.
-/

import DataContract.Schema.Declaration

set_option autoImplicit false

namespace DataContract

/-- Why parts do not make up a type or a rule. -/
inductive PartsFault where
  | unknownKind (label : String)
  | nestedWithoutSchema
  | itemOutsideArray
  | textOptionsOnly
deriving DecidableEq

/-- The wording of parts that do not fit. -/
def PartsFault.text : PartsFault → String
  | .unknownKind label => Text.quoted label ++ " is not a valid TypeKind"
  | .nestedWithoutSchema => "Nested type requires a compiled schema"
  | .itemOutsideArray => "Only array types may declare an item type"
  | .textOptionsOnly => "regex and enum can be set only for strings"

/-- The kind with a name. -/
def Kind.ofLabel (label : String) : Except PartsFault Kind :=
  match Kind.ofLabel? label with
  | some kind => .ok kind
  | none => .error (.unknownKind label)

/-- The type with a kind, a schema and an item type. A schema beside a kind other
than nested says nothing. -/
def TypeSpec.ofParts (kind : Kind) (child : Option Schema) (item : Option TypeSpec) :
    Except PartsFault TypeSpec :=
  match kind, child, item with
  | .nested, none, _ => .error .nestedWithoutSchema
  | .nested, some s, none => .ok (.nested s)
  | .array, _, item => .ok (.array item)
  | .scalar s, _, none => .ok (.scalar s)
  | _, _, some _ => .error .itemOutsideArray

/-- Refuses a rule with text options on a type other than text. -/
def Rule.ofParts (r : Rule) : Except PartsFault Rule :=
  if (r.pattern.isSome || r.choices.isSome) && !Declaration.isTextType r.type then
    .error .textOptionsOnly
  else .ok r

end DataContract
