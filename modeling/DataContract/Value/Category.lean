/-
# Categories and names of values

Every value belongs to one of seven categories, or is known by the name of its
sort. Errors name categories; a declared token that is no type is named by what
it is.
-/

import DataContract.Value.Basic

set_option autoImplicit false

namespace DataContract

/-- The name of a type token. -/
def TypeToken.name : TypeToken → String
  | .text => "str"
  | .integer => "int"
  | .float => "float"
  | .boolean => "bool"
  | .mapping => "dict"
  | .callable => "callable"
  | .callableInterface => "Callable"
  | .date => "date"
  | .moment => "datetime"
  | .list => "list"
  | .tuple => "tuple"
  | .set => "set"
  | .bytes => "bytes"
  | .object => "object"
  | .nothing => "NoneType"
  | .complex => "complex"

/-- All type tokens. -/
def TypeToken.all : List TypeToken :=
  [.text, .integer, .float, .boolean, .mapping, .callable, .callableInterface, .date, .moment,
    .list, .tuple, .set, .bytes, .object, .nothing, .complex]

/-- The type token with a given name. -/
def TypeToken.ofName? (name : String) : Option TypeToken := all.find? (·.name == name)

/-- The name of something callable. -/
def Callable.name : Callable → String
  | .token t => t.name
  | .function _ name => name

namespace Value

/-- The name of the sort of a value. -/
def sortName : Value → String
  | .null => "NoneType"
  | .bool _ => "bool"
  | .int _ => "int"
  | .float _ => "float"
  | .text _ => "str"
  | .bytes _ => "bytes"
  | .date _ => "date"
  | .moment _ => "datetime"
  | .list _ => "list"
  | .tuple _ => "tuple"
  | .set _ => "set"
  | .object _ => "dict"
  | .frozen _ => "mappingproxy"
  | .callable (.token .callable) => "builtin_function_or_method"
  | .callable (.token .callableInterface) => "ABCMeta"
  | .callable (.token _) => "type"
  | .callable (.function ..) => "function"
  | .pattern _ => "Pattern"
  | .thing _ className => className
  | .schema .. => "CompiledSchema"
  | .validator .. => "Schemy"
  | .rule _ => "PropertyRule"
  | .plugin .. => "Plugin"
  | .shared _ => "object"

/-- The category of a value: one of the seven, or the name of its sort. -/
def category : Value → String
  | .null => "null"
  | .bool _ => "boolean"
  | .int _ | .float _ => "number"
  | .text _ => "string"
  | .list _ | .tuple _ => "array"
  | .object _ | .frozen _ | .schema .. => "object"
  | .callable _ => "function"
  | v => v.sortName

/-- The name under which a declared token is reported: a text is its own name, a
callable thing has a name, and any other value is named by its sort. -/
def tokenName : Value → String
  | .text s => s
  | .callable f => f.name
  | v => v.sortName

/-- Whether a value counts as true: zeros and what is empty do not. -/
def truthy : Value → Bool
  | .null => false
  | .bool b => b
  | .int n => n != 0
  | .float x => !x.isZero
  | .text s => s != ""
  | .bytes content => !content.isEmpty
  | .list items | .tuple items | .set items => !items.isEmpty
  | .object entries | .frozen entries => !entries.isEmpty
  | .schema _ s => !s.rules.isEmpty
  | _ => true

/-- What a value yields one after the other: the items of a list, the keys of a
mapping, the numbers of a byte string, the characters of a text. -/
def elements? : Value → Option (List Value)
  | .list items | .tuple items | .set items => some items
  | .object entries | .frozen entries => some (entries.map (·.1))
  | .schema _ s => some (s.rules.map (·.name))
  | .bytes content => some (content.map fun b => .int b.toNat)
  | .text s => some (s.toList.map fun c => .text (String.singleton c))
  | _ => none

end Value

mutual

/-- Whether a value can be a key: lists, mappings and sets cannot, nor can what
holds one. -/
def Value.isKey : Value → Bool
  | .list _ | .set _ | .object _ | .frozen _ | .schema .. | .shared _ => false
  | .tuple items => allKeys items
  | _ => true

/-- Whether all of some values can be keys. -/
def allKeys : List Value → Bool
  | [] => true
  | v :: rest => v.isKey && allKeys rest

end

end DataContract
