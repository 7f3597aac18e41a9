/-
# Equality of values

Numbers and truth values are equal by exact value, whatever their sort. Mappings
are equal when they have the same keys with equal values, in any order, and a
schema compares as the mapping from its names to its rules. Functions, things and
validators are equal only to themselves. Shared lists and mappings compare by
their cell; to compare their contents the store is read first.
-/

import DataContract.Value.Basic

set_option autoImplicit false

namespace DataContract

/-- Equality of callable things: tokens by name, functions by identity. -/
def Callable.same : Callable → Callable → Bool
  | .token s, .token t => s == t
  | .function i _, .function j _ => i == j
  | _, _ => false

/-- Equality of optional parts. -/
def sameOption {α β : Type} (same : α → β → Bool) : Option α → Option β → Bool
  | none, none => true
  | some a, some b => same a b
  | _, _ => false

/-- Equality of a number with a value. -/
def Number.equalsValue (a : Number) (w : Value) : Bool :=
  match w.numeric? with
  | some b => a.eq b
  | none => false

/-- Whether a value is a mapping of a given size whose entries pass a test. -/
def Value.isMappingWith (w : Value) (size : Nat) (test : Entries → Bool) : Bool :=
  match w.entries? with
  | some entries => size == entries.length && test entries
  | none => false

mutual

/-- Equality of values. -/
def Value.equal : Value → Value → Bool
  | .null, .null => true
  | .bool a, w => (Number.int (if a then 1 else 0)).equalsValue w
  | .int a, w => (Number.int a).equalsValue w
  | .float a, w => (Number.float a).equalsValue w
  | .text a, .text b => a == b
  | .bytes a, .bytes b => a == b
  | .date a, .date b => a == b
  | .moment a, .moment b => a.same b
  | .list a, .list b => itemsEqual a b
  | .tuple a, .tuple b => itemsEqual a b
  | .set a, .set b => a.length == b.length && allAmong a b
  | .object a, w => w.isMappingWith a.length (allEntriesAmong a)
  | .frozen a, w => w.isMappingWith a.length (allEntriesAmong a)
  | .schema _ ⟨rules, _⟩, w => w.isMappingWith rules.length (allRulesAmong rules)
  | .callable a, .callable b => a.same b
  | .pattern a, .pattern b => a.same b
  | .thing a _, .thing b _ => a == b
  | .validator a _, .validator b _ => a == b
  | .rule a, .rule b => a.isEntry b.name (.rule b)
  | .plugin a _, .plugin b _ => a == b
  | .shared a, .shared b => a == b
  | _, _ => false
  termination_by structural v => v

/-- Equality of the items of two lists. -/
def itemsEqual : List Value → List Value → Bool
  | [], [] => true
  | a :: as, b :: bs => a.equal b && itemsEqual as bs
  | _, _ => false
  termination_by structural items => items

/-- Whether each of some values is equal to one of others. -/
def allAmong : List Value → List Value → Bool
  | [], _ => true
  | a :: as, bs => bs.any a.equal && allAmong as bs
  termination_by structural items => items

/-- Whether each of some entries is among others. -/
def allEntriesAmong : List (Value × Value) → Entries → Bool
  | [], _ => true
  | (k, v) :: rest, bs => (bs.any fun e => k.equal e.1 && v.equal e.2) && allEntriesAmong rest bs
  termination_by structural entries => entries

/-- Whether each of some rules is among entries, under its name. -/
def allRulesAmong : List Rule → Entries → Bool
  | [], _ => true
  | r :: rest, bs => (bs.any fun e => r.isEntry e.1 e.2) && allRulesAmong rest bs
  termination_by structural rules => rules

/-- Whether an entry has the name of a rule as its key and an equal rule as its
value; rules are compared field by field. -/
def Rule.isEntry (r : Rule) (key value : Value) : Bool :=
  match r with
  | { name, type, required, custom, pattern, min, max, choices, default, message } =>
    name.equal key &&
      match value with
      | .rule b =>
        name.equal b.name && type.equal b.type && required == b.required &&
          sameOption Callable.same custom b.custom && sameOption Pattern.same pattern b.pattern &&
          sameOption Number.eq min b.min && sameOption Number.eq max b.max &&
          choicesEqual choices b.choices && optionEqual default b.default &&
          optionEqual message b.message
      | _ => false
  termination_by structural r

/-- Equality of the accepted values of two rules. -/
def choicesEqual : Option (List Value) → Option (List Value) → Bool
  | none, none => true
  | some a, some b => itemsEqual a b
  | _, _ => false
  termination_by structural a => a

/-- Equality of optional values. -/
def optionEqual : Option Value → Option Value → Bool
  | none, none => true
  | some a, some b => a.equal b
  | _, _ => false
  termination_by structural a => a

/-- Equality of types; the order and strictness of nested schemas do not count. -/
def TypeSpec.equal : TypeSpec → TypeSpec → Bool
  | .scalar a, .scalar b => a == b
  | .nested ⟨rules, _⟩, .nested b =>
    rules.length == b.rules.length && allRulesAmong rules (Value.schemaEntries b)
  | .array a, .array b => itemSpecEqual a b
  | _, _ => false
  termination_by structural t => t

/-- Equality of optional item types. -/
def itemSpecEqual : Option TypeSpec → Option TypeSpec → Bool
  | none, none => true
  | some a, some b => a.equal b
  | _, _ => false
  termination_by structural t => t

end

/-- Equality of schemas as mappings from names to rules. -/
def Schema.equal (a b : Schema) : Bool :=
  a.rules.length == b.rules.length && allRulesAmong a.rules (Value.schemaEntries b)

/-- Equality of rules, field by field. -/
def Rule.equal (a b : Rule) : Bool := a.isEntry b.name (.rule b)

end DataContract
