/-
# Declarations as they are written in documents

In a document types have names and patterns are texts. Reading a document turns
the names that stand where a type is expected into type tokens, and the patterns
of rules into compiled ones; everything else is passed on for the compiler to
check. Keys become texts.

A document can contain itself. Where its parts are written out, what is left of such a
part is the cell that it lives in, and a declaration that goes on there has no end.

The keys of a nested declaration that speak about its property are moved to its
end; `metaOrder` says in which order, as a document does not.
-/

import DataContract.Schema.Declaration

set_option autoImplicit false

namespace DataContract.Document

open Declaration (typeKey isMetaKey)

/-- The type names of documents and their tokens. -/
def typeNames : List (String × TypeToken) :=
  [("string", .text), ("number", .float), ("integer", .integer), ("boolean", .boolean),
    ("object", .mapping), ("function", .callable), ("date", .date), ("array", .list)]

/-- The token that a type name stands for; a keyword stands for itself. -/
def typeToken (name : String) (key : Value) : Except SchemaError Value :=
  if (Declaration.keywordType? name).isSome then .ok (.text name)
  else match typeNames.lookup name with
    | some token => .ok (.callable (.token token))
    | none => .error (.unsupportedType key name)

/-- Compiles the pattern of a rule if it is a text. -/
def readPattern (key : Value) (options : Entries) : Except SchemaError Entries :=
  match options.get? (.text "regex") with
  | some (.text source) =>
    match Pattern.compile source {} with
    | .ok p => .ok (options.put (.text "regex") (.pattern p))
    | .error (.malformed defect position) =>
      .error (.malformedPattern key source defect position)
    | .error .countTooLarge => .error .patternCountTooLarge
    | .error .clashingOptions => .error .patternOptionsClash
  | _ => .ok options

/-- Moves the keys that speak about a property to the end of its declaration. -/
def appendMeta (metaOrder : List String) (source converted : Entries) : Entries :=
  metaOrder.foldl
    (fun result name =>
      match source.get? (.text name) with
      | some v => result.put (.text name) v
      | none => result)
    converted

/-- Entries with their keys turned into texts. -/
def textKeys (entries : Entries) : Entries :=
  Entries.ofPairs (entries.map fun e => (.text e.1.shown, e.2))

/-- A compiled schema read as the entry of a property: a mapping from its names to
its rules, which are passed on. -/
def readSchemaEntry (metaOrder : List String) (s : Schema) : Entries :=
  let entries := Value.schemaEntries s
  if entries.contains typeKey then entries
  else appendMeta metaOrder entries (textKeys (entries.filter fun e => !isMetaKey e.1))

mutual

/-- Reads the entries of a declaration into `done`; in a nested declaration the keys
that speak about its property are passed over. -/
def readEntries (metaOrder : List String) (inner : Bool) :
    List (Value × Value) → Entries → Except SchemaError Entries
  | [], done => .ok done
  | (k, v) :: rest, done =>
    if inner && isMetaKey k then readEntries metaOrder inner rest done
    else do
      let key : Value := .text k.shown
      let entry ← readEntry metaOrder key v
      readEntries metaOrder inner rest (done.put key entry)
  termination_by structural entries => entries

/-- Reads the entry of one property. -/
def readEntry (metaOrder : List String) (key : Value) : Value → Except SchemaError Value
  | .object entries =>
    match readTypeIn metaOrder key entries with
    | some type => do
      return .object (← readPattern key (Entries.put entries typeKey (← type)))
    | none => do
      let converted ← readEntries metaOrder true entries []
      return .object (appendMeta metaOrder entries converted)
  | .frozen entries =>
    match readTypeIn metaOrder key entries with
    | some type => do
      return .object (← readPattern key (Entries.put entries typeKey (← type)))
    | none => do
      let converted ← readEntries metaOrder true entries []
      return .object (appendMeta metaOrder entries converted)
  | .text name => typeToken name key
  | .list items => do return .list (← readTypes metaOrder key items)
  | .schema _ s => .ok (.object (readSchemaEntry metaOrder s))
  | .shared _ => .error .endless
  | v => .ok v
  termination_by structural v => v

/-- Reads the type among the options of a property, if there is one. -/
def readTypeIn (metaOrder : List String) (key : Value) :
    List (Value × Value) → Option (Except SchemaError Value)
  | [] => none
  | (k, v) :: rest =>
    if k.equal typeKey then some (readType metaOrder key v) else readTypeIn metaOrder key rest
  termination_by structural entries => entries

/-- Reads a type: a name, a list of types, or a mapping that declares a record. -/
def readType (metaOrder : List String) (key : Value) : Value → Except SchemaError Value
  | .text name => typeToken name key
  | .list items => do return .list (← readTypes metaOrder key items)
  | .object entries => do return .object (← readEntries metaOrder false entries [])
  | .frozen entries => do return .object (← readEntries metaOrder false entries [])
  | .schema _ s => .ok (.object (textKeys (Value.schemaEntries s)))
  | .shared _ => .error .endless
  | v => .ok v
  termination_by structural v => v

/-- Reads some types in order. -/
def readTypes (metaOrder : List String) (key : Value) :
    List Value → Except SchemaError (List Value)
  | [] => .ok []
  | v :: rest => do
    let type ← readType metaOrder key v
    let types ← readTypes metaOrder key rest
    return type :: types
  termination_by structural items => items

end

/-- The order in which the keys about a property are written. -/
def defaultMetaOrder : List String := ["required", "custom"]

/-- Reads a declaration as it is written in a document. -/
def parse (metaOrder : List String) (raw : Value) : Except SchemaError Entries :=
  match raw.entries? with
  | some entries => readEntries metaOrder false entries []
  | none => .error (.notAMapping raw.sortName)

end DataContract.Document
