/-
# Values, rules and schemas

`Value` is what a data record, a declaration or an option of a rule is made of.
Mappings keep their entries in insertion order, keys are values of any sort, and
lists and mappings are owned by the value that holds them; a list or mapping that
can be reached in several ways is a cell of a store and appears as `shared`.

A compiled schema is a value too: it may be declared as the type of a property,
and it is a read-only mapping from names to rules. So values, rules, type
specifications and schemas are defined together.
-/

import DataContract.Calendar.Moment
import DataContract.Number.Basic
import DataContract.Pattern.Basic

set_option autoImplicit false

namespace DataContract

/-- The tokens that name a type in a declaration. `callable` is the test for being
callable and `callableInterface` the interface of callable things; both stand for
functions. -/
inductive TypeToken where
  | text
  | integer
  | float
  | boolean
  | mapping
  | callable
  | callableInterface
  | date
  | moment
  | list
  | tuple
  | set
  | bytes
  | object
  | nothing
  | complex
deriving DecidableEq, Inhabited

/-- The versions of universally unique identifiers that can be asked for. -/
inductive UuidVersion where
  | timeBased
  | random
deriving DecidableEq, Inhabited

/-- The kinds of values without parts that a rule looks into. -/
inductive Scalar where
  | text
  | number
  | boolean
  | object
  | function
  | date
  | uuid (version : UuidVersion)
deriving DecidableEq, Inhabited

/-- The kinds of values that a property can be declared to have. -/
inductive Kind where
  | scalar (s : Scalar)
  | nested
  | array
deriving DecidableEq, Inhabited

/-- The name of a kind in declarations and messages. -/
def Scalar.label : Scalar → String
  | .text => "string"
  | .number => "number"
  | .boolean => "boolean"
  | .object => "object"
  | .function => "function"
  | .date => "date"
  | .uuid .timeBased => "uuid/v1"
  | .uuid .random => "uuid/v4"

/-- The name of a kind in declarations and messages. -/
def Kind.label : Kind → String
  | .scalar s => s.label
  | .nested => "nested"
  | .array => "array"

/-- All kinds. -/
def Kind.all : List Kind :=
  [.scalar .text, .scalar .number, .scalar .boolean, .scalar .object, .scalar .function,
    .scalar .date, .scalar (.uuid .timeBased), .scalar (.uuid .random), .nested, .array]

/-- The kind with a given name. -/
def Kind.ofLabel? (label : String) : Option Kind := Kind.all.find? (·.label == label)

/-- Something that can be called: a type token, or a function, which is known by its
identity and its name. What a function does is not part of the value. -/
inductive Callable where
  | token (t : TypeToken)
  | function (id : Nat) (name : String)
deriving DecidableEq, Inhabited

mutual

/-- A value. -/
inductive Value where
  | null
  | bool (b : Bool)
  | int (n : Int)
  | float (x : Binary64)
  | text (s : String)
  | bytes (bytes : List UInt8)
  | date (d : Date)
  | moment (m : Moment)
  | list (items : List Value)
  | tuple (items : List Value)
  | set (members : List Value)
  | object (entries : List (Value × Value))
  | frozen (entries : List (Value × Value))
  | callable (f : Callable)
  | pattern (p : Pattern)
  | thing (id : Nat) (className : String)
  | schema (id : Nat) (s : Schema)
  | validator (id : Nat) (s : Schema)
  | rule (r : Rule)
  | plugin (id : Nat) (name : String)
  | shared (cell : Nat)

/-- What is required of one property. Bounds limit the length of a text, the value
of a number, or the length of an array. -/
structure Rule where
  name : Value
  type : TypeSpec
  required : Bool
  custom : Option Callable
  pattern : Option Pattern
  min : Option Number
  max : Option Number
  choices : Option (List Value)
  default : Option Value
  message : Option Value

/-- The rules of a record in declaration order, and whether properties that are
not declared are tolerated. -/
structure Schema where
  rules : List Rule
  flex : Bool

/-- The type of a property. An array without an item type takes items of any
type. -/
inductive TypeSpec where
  | scalar (s : Scalar)
  | nested (s : Schema)
  | array (item : Option TypeSpec)

end

instance : Inhabited Value := ⟨.null⟩

instance : Inhabited Schema := ⟨⟨[], false⟩⟩

instance : Inhabited TypeSpec := ⟨.array none⟩

/-- Entries of a mapping in their order. -/
abbrev Entries := List (Value × Value)

/-- The kind of a type. -/
def TypeSpec.kind : TypeSpec → Kind
  | .scalar s => .scalar s
  | .nested _ => .nested
  | .array _ => .array

/-- The kind of a rule's type. -/
def Rule.kind (r : Rule) : Kind := r.type.kind

/-- A rule that asks for a type and nothing else. -/
def Rule.ofType (name : Value) (type : TypeSpec) : Rule :=
  { name, type, required := false, custom := none, pattern := none, min := none, max := none,
    choices := none, default := none, message := none }

/-- A number as a value. -/
def Number.toValue : Number → Value
  | .int n => .int n
  | .float x => .float x

namespace Value

/-- The number that a value is; truth values are no numbers. -/
def number? : Value → Option Number
  | .int n => some (.int n)
  | .float x => some (.float x)
  | _ => none

/-- The number that a value equals: truth values equal one and zero. -/
def numeric? : Value → Option Number
  | .bool b => some (.int (if b then 1 else 0))
  | v => v.number?

/-- The entries of a schema seen as a mapping. -/
def schemaEntries (s : Schema) : Entries := s.rules.map fun r => (r.name, .rule r)

/-- The entries of a mapping, whether it can be written to or not. -/
def entries? : Value → Option Entries
  | .object entries => some entries
  | .frozen entries => some entries
  | .schema _ s => some (schemaEntries s)
  | _ => none

/-- The items of a list or tuple. -/
def items? : Value → Option (List Value)
  | .list items => some items
  | .tuple items => some items
  | _ => none

/-- Whether a value is a mapping. -/
def isMapping (v : Value) : Bool := v.entries?.isSome

/-- Whether a value is a list or tuple. -/
def isArray (v : Value) : Bool := v.items?.isSome

/-- Whether a value can be called. -/
def isCallable : Value → Bool
  | .callable _ => true
  | _ => false

/-- Whether a value is a number. -/
def isNumber (v : Value) : Bool := v.number?.isSome

end Value

end DataContract
