/-
# Compiling declarations

A declaration maps property names to entries. An entry is a type token, a mapping
with a `type` and further options, or a mapping without a `type`, which is itself
a declaration in which `required` and `custom` speak about the property. Entries
are compiled in order and the first faulty one decides the error.

Nested schemas are strict whatever is asked for the outermost one.
-/

import DataContract.Schema.Error
import DataContract.Value.Entries

set_option autoImplicit false

namespace DataContract

namespace Declaration

/-- The option that gives the type of a property. -/
def typeKey : Value := .text "type"

/-- Whether a key of a nested declaration speaks about the property that holds it. -/
def isMetaKey (key : Value) : Bool :=
  key.equal (.text "required") || key.equal (.text "custom")

/-- The entry of one property, told apart by its form. -/
inductive Form where
  | plain (options : Value)
  | nested (declaration : Entries) (required : Bool) (custom : Value)

/-- Tells the form of a mapping that is no compiled schema. -/
def formOfEntries (options : Value) (entries : Entries) : Form :=
  if entries.contains typeKey then .plain options
  else
    .nested (entries.filter fun e => !isMetaKey e.1)
      ((entries.get? (.text "required")).any Value.truthy)
      ((entries.get? (.text "custom")).getD .null)

/-- Tells the form of an entry. A type token asks for a required property. -/
def form : Value → Form
  | .object entries => formOfEntries (.object entries) entries
  | .frozen entries => formOfEntries (.frozen entries) entries
  | token => .plain (.object [(typeKey, token), (.text "required", .bool true)])

/-- The type of a type token. -/
def tokenType? : TypeToken → Option TypeSpec
  | .text => some (.scalar .text)
  | .integer | .float => some (.scalar .number)
  | .boolean => some (.scalar .boolean)
  | .mapping => some (.scalar .object)
  | .callable | .callableInterface => some (.scalar .function)
  | .date | .moment => some (.scalar .date)
  | .list | .tuple => some (.array none)
  | .set | .bytes | .object | .nothing | .complex => none

/-- The keywords that are types: the two sorts of identifier. -/
def keywordType? (word : String) : Option TypeSpec :=
  if word == (Scalar.uuid .timeBased).label then some (.scalar (.uuid .timeBased))
  else if word == (Scalar.uuid .random).label then some (.scalar (.uuid .random))
  else none

/-- The type that a value is without lists and mappings being looked into: that of
a keyword or token, or the record of a compiled schema. -/
def simpleType? : Value → Option TypeSpec
  | .text word => keywordType? word
  | .callable (.token t) => tokenType? t
  | .schema _ s => some (.nested s)
  | .validator _ s => some (.nested s)
  | _ => none

/-- The type of a value that is neither a list nor a mapping. -/
def simpleType (key token : Value) : Except SchemaError TypeSpec :=
  match simpleType? token with
  | some type => .ok type
  | none => .error (.unsupportedType key token.tokenName)

/-- The rule of a property that is declared by a type alone. -/
def requiredRule (key : Value) (type : TypeSpec) : Rule :=
  { Rule.ofType key type with required := true }

/-- Checks a custom validator. -/
def customOf (key : Value) (custom : Value) : Except SchemaError (Option Callable) :=
  match custom with
  | .null => .ok none
  | .callable f => .ok (some f)
  | v => .error (.customNotCallable key v.category)

/-- Checks a bound. -/
def boundOf (key : Value) (bound : Bound) (options : Entries) :
    Except SchemaError (Option Number) :=
  match options.option? bound.label with
  | none => .ok none
  | some v =>
    match v.number? with
    | some n => .ok (some n)
    | none => .error (.boundNotANumber key bound)

/-- Checks a pattern. -/
def patternOf (key : Value) : Option Value → Except SchemaError (Option Pattern)
  | none => .ok none
  | some (.pattern p) => .ok (some p)
  | some _ => .error (.patternExpected key)

/-- Checks the accepted values. -/
def choicesOf (key : Value) : Option Value → Except SchemaError (Option (List Value))
  | none => .ok none
  | some (.list items) => .ok (some items)
  | some (.tuple items) => .ok (some items)
  | some (.set members) => .ok (some members)
  | some _ => .error (.choicesNotAList key)

/-- Whether a type is that of texts. -/
def isTextType : TypeSpec → Bool
  | .scalar .text => true
  | _ => false

/-- The rule of a property with a type and options, checked in a fixed order. -/
def ruleOf (key : Value) (type : TypeSpec) (options : Entries) : Except SchemaError Rule := do
  let regex := options.option? "regex"
  let enum := options.option? "enum"
  if (regex.isSome || enum.isSome) && !isTextType type then
    throw (.textOptionsOnly key)
  let pattern ← patternOf key regex
  let choices ← choicesOf key enum
  let custom ← customOf key ((options.option? "custom").getD .null)
  let min ← boundOf key .min options
  let max ← boundOf key .max options
  return {
    name := key, type, custom, pattern, min, max, choices
    required := (options.get? (.text "required")).any Value.truthy
    default := options.option? "default"
    message := options.option? "message" }

/-- The rule of a property that holds a nested record. -/
def nestedRule (key : Value) (rules : List Rule) (custom : Option Callable) (entries : Entries) :
    Rule :=
  { Rule.ofType key (.nested ⟨rules, false⟩) with
    required := (entries.get? (.text "required")).any Value.truthy
    custom }

mutual

/-- Compiles entries in order; in a nested declaration the keys that speak about its
property are passed over. -/
def compileEntries (inner : Bool) : List (Value × Value) → Except SchemaError (List Rule)
  | [] => .ok []
  | (key, entry) :: rest =>
    if inner && isMetaKey key then compileEntries inner rest
    else do
      let rule ← compileEntry key entry
      let rules ← compileEntries inner rest
      return rule :: rules
  termination_by structural entries => entries

/-- Compiles the entry of one property. -/
def compileEntry (key : Value) : Value → Except SchemaError Rule
  | .object entries =>
    match compileTypeIn key entries with
    | some type => do ruleOf key (← type) entries
    | none => do
      let custom ← customOf key ((Entries.get? entries (.text "custom")).getD .null)
      let rules ← (compileEntries true entries).mapError (.nested key)
      return nestedRule key rules custom entries
  | .frozen entries =>
    match compileTypeIn key entries with
    | some type => do ruleOf key (← type) entries
    | none => do
      let custom ← customOf key ((Entries.get? entries (.text "custom")).getD .null)
      let rules ← (compileEntries true entries).mapError (.nested key)
      return nestedRule key rules custom entries
  | .list items => (compileItemType key items).map (requiredRule key)
  | .tuple items => (compileItemType key items).map (requiredRule key)
  | token => (simpleType key token).map (requiredRule key)
  termination_by structural v => v

/-- Compiles the type among the options of a property, if there is one. -/
def compileTypeIn (key : Value) : List (Value × Value) → Option (Except SchemaError TypeSpec)
  | [] => none
  | (k, v) :: rest =>
    if k.equal typeKey then some (compileType key v) else compileTypeIn key rest
  termination_by structural entries => entries

/-- Compiles a type: a compiled schema stands for a nested record, a list of at most
one type for an array, and a mapping for a nested declaration. -/
def compileType (key : Value) : Value → Except SchemaError TypeSpec
  | .list items => compileItemType key items
  | .tuple items => compileItemType key items
  | .object entries => do
    let rules ← (compileEntries false entries).mapError (.nested key)
    return .nested ⟨rules, false⟩
  | .frozen entries => do
    let rules ← (compileEntries false entries).mapError (.nested key)
    return .nested ⟨rules, false⟩
  | token => simpleType key token
  termination_by structural v => v

/-- Compiles the type of an array from the list that holds its item type. -/
def compileItemType (key : Value) : List Value → Except SchemaError TypeSpec
  | [] => .ok (.array none)
  | [item] => do return .array (some (← compileType key item))
  | _ => .error (.severalItemTypes key)
  termination_by structural items => items

end

/-- The compiled schema that a value is or carries. -/
def compiled? : Value → Option Schema
  | .schema _ s => some s
  | .validator _ s => some s
  | _ => none

/-- Compiles a declaration. A compiled schema stands for itself and keeps its mode. -/
def compile (declaration : Value) (strict : Bool) : Except SchemaError Schema :=
  match compiled? declaration with
  | some s => .ok s
  | none =>
    match declaration.entries? with
    | some entries => do
      let rules ← compileEntries false entries
      return ⟨rules, !strict⟩
    | none => .error (.notAMapping declaration.category)

end Declaration

end DataContract
