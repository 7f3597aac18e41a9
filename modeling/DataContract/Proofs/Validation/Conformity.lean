/-
# Data that conforms to a schema

Conformity is said by recursion on the schema and looks at data that stays as it is:
there is no run and no violation, and a store is only looked into for what is shared.
Beside it stand the defaults of a schema written into data all at once, and the
assumptions under which data is a tree: no list or mapping is reached in several ways,
and the names of a schema are keys that can be told apart.
-/

import DataContract.Proofs.Schema.Induction
import DataContract.Proofs.Value.Entries
import DataContract.Validation.Engine

set_option autoImplicit false

namespace DataContract

/-- A number that is not below a lower bound nor above an upper one. -/
def WithinBounds (min max : Option Number) (n : Number) : Prop :=
  (∀ bound, min = some bound → n.lt bound = false) ∧ ∀ bound, max = some bound → bound.lt n = false

/-- A text that is among the accepted values, in which the pattern is found, and whose
length is within bounds. -/
def Rule.AcceptsText (r : Rule) (s : String) : Prop :=
  (∀ choices, r.choices = some choices → ∃ c ∈ choices, c.equal (.text s) = true) ∧
    (∀ p, r.pattern = some p → p.foundIn s = true) ∧
    WithinBounds r.min r.max (.int s.length)

/-- A value that has a scalar kind and keeps to the options of a rule of that kind. -/
def Scalar.Conforms (r : Rule) : Scalar → Value → Prop
  | .text, v => ∃ s, v = .text s ∧ r.AcceptsText s
  | .number, v => ∃ n, v.number? = some n ∧ WithinBounds r.min r.max n
  | kind, v => kind.fits v = .ok true

mutual

/-- A mapping that holds no key that a strict schema does not declare, and keeps to
every rule. -/
def Schema.Conforms (st : Store) : Schema → Value → Prop
  | ⟨rules, flex⟩, v =>
    ∃ entries, (st.head v).entries? = some entries ∧
      (flex = false → ∀ key ∈ entries.keys, ∃ r ∈ rules, r.name.equal key = true) ∧
      RulesConform st rules entries
  termination_by structural s => s

/-- Entries that keep to each of some rules. -/
def RulesConform (st : Store) : List Rule → Entries → Prop
  | [], _ => True
  | r :: rest, entries => r.Conforms st entries ∧ RulesConform st rest entries
  termination_by structural rules => rules

/-- Entries in which the property of a rule has a value that the rule admits, or is
absent and not required. -/
def Rule.Conforms (st : Store) (r : Rule) (entries : Entries) : Prop :=
  match r with
  | { name, type, required, custom, pattern, min, max, choices, default, message } =>
    match entries.get? name with
    | none => required = false
    | some .null => required = false
    | some v =>
      type.Conforms st
        { name, type, required, custom, pattern, min, max, choices, default, message } v
  termination_by structural r

/-- A value that has the type of a rule and keeps to the rule's bounds. -/
def TypeSpec.Conforms (st : Store) : TypeSpec → Rule → Value → Prop
  | .scalar kind, r, v => kind.Conforms r (st.head v)
  | .nested s, _, v => s.Conforms st v
  | .array none, r, v =>
    ∃ items, (st.head v).items? = some items ∧ WithinBounds r.min r.max (.int items.length)
  | .array (some item), r, v =>
    ∃ items, (st.head v).items? = some items ∧ WithinBounds r.min r.max (.int items.length) ∧
      ∀ x ∈ items, item.AdmitsItem st x
  termination_by structural t => t

/-- A value that an array with this item type may hold. -/
def TypeSpec.AdmitsItem (st : Store) : TypeSpec → Value → Prop
  | .scalar kind, v => kind.fits (st.head v) = .ok true
  | .nested s, v => s.Conforms st v
  | .array none, v => (st.head v).isArray = true
  | .array (some item), v =>
    ∃ items, (st.head v).items? = some items ∧ ∀ x ∈ items, item.AdmitsItem st x
  termination_by structural t => t

end

theorem rulesConform_iff {st : Store} (rules : List Rule) (entries : Entries) :
    RulesConform st rules entries ↔ ∀ r ∈ rules, r.Conforms st entries := by
  induction rules with
  | nil => simp [RulesConform]
  | cons r rest ih => rw [RulesConform, ih, List.forall_mem_cons]

mutual

/-- Whether no list or mapping in a value is one that others can reach too. -/
def Value.unshared : Value → Bool
  | .list items => allUnshared items
  | .tuple items => allUnshared items
  | .object entries => entriesUnshared entries
  | .frozen entries => entriesUnshared entries
  | .shared _ => false
  | _ => true
  termination_by structural v => v

/-- Whether some values are unshared. -/
def allUnshared : List Value → Bool
  | [] => true
  | v :: rest => v.unshared && allUnshared rest
  termination_by structural items => items

/-- Whether the values of some entries are unshared. -/
def entriesUnshared : List (Value × Value) → Bool
  | [] => true
  | (_, v) :: rest => v.unshared && entriesUnshared rest
  termination_by structural entries => entries

end

/-- The names of a schema are keys with an identity, and no two are the same key. -/
structure Schema.NamesApart (s : Schema) : Prop where
  known : ∀ r ∈ s.rules, r.name.identity?.isSome = true
  apart : (s.rules.map fun r => r.name.identity?).Nodup

namespace Schema.NamesApart

variable {s : Schema} (names : s.NamesApart)

include names

theorem keys : ∀ r ∈ s.rules, r.name.IsKey := fun r mem => .of_known (names.known r mem)

theorem differ : s.rules.Pairwise fun r q => r.name.equal q.name = false := by
  refine List.Pairwise.imp_of_mem (fun {r q} mem _ other => ?_) (List.pairwise_map.mp names.apart)
  obtain ⟨i, identity⟩ := Option.isSome_iff_exists.mp (names.known r mem)
  rw [identity] at other
  rw [Bool.eq_false_iff, ne_eq, Value.equal_iff_of_identity? identity]
  exact other.symm

end Schema.NamesApart

/-- Fills the items of an array in order. -/
def fillItems (fill : Value → Store → Value × Store) : List Value → Store → List Value × Store
  | [], st => ([], st)
  | v :: rest, st =>
    let (first, st) := fill v st
    let (others, st) := fillItems fill rest st
    (first :: others, st)

variable [UserCode]

/-- The entries and the store with which a rule begins: its default is written where the
mapping can be written to and the value is absent. -/
def Rule.prepare (r : Rule) (writable : Bool) (entries : Entries) (st : Store) :
    Entries × Store :=
  if writable && (r.valueIn entries).isNone then
    match r.defaultValue st with
    | (.ok (some v), st) => (entries.put r.name v, st)
    | (_, st) => (entries, st)
  else (entries, st)

mutual

/-- Writes the defaults of a schema into a value, and those of the schemas below it into
the parts that they govern. Mappings that cannot be written to keep what they hold. -/
def Schema.fillAll : Schema → Value → Store → Value × Store
  | ⟨rules, _⟩, .object entries, st =>
    let (filled, st) := fillRules rules true entries st
    (.object filled, st)
  | ⟨rules, _⟩, .frozen entries, st =>
    let (filled, st) := fillRules rules false entries st
    (.frozen filled, st)
  | _, v, st => (v, st)
  termination_by structural s => s

/-- Writes the defaults of some rules in order. -/
def fillRules : List Rule → Bool → Entries → Store → Entries × Store
  | [], _, entries, st => (entries, st)
  | r :: rest, writable, entries, st =>
    let (filled, st) := r.fillAll writable entries st
    fillRules rest writable filled st
  termination_by structural rules => rules

/-- Writes the default of a rule, and what its type has to write into its value. -/
def Rule.fillAll (r : Rule) (writable : Bool) (entries : Entries) (st : Store) :
    Entries × Store :=
  match r with
  | { name, type, required, custom, pattern, min, max, choices, default, message } =>
    let r : Rule :=
      { name, type, required, custom, pattern, min, max, choices, default, message }
    let begun := r.prepare writable entries st
    match r.valueIn begun.1 with
    | none => begun
    | some v =>
      let (filled, st) := type.fillAll v begun.2
      (begun.1.put name filled, st)
  termination_by structural r

/-- Writes the defaults of the schemas in a type. -/
def TypeSpec.fillAll : TypeSpec → Value → Store → Value × Store
  | .nested s, v, st => s.fillAll v st
  | .array (some item), .list items, st =>
    let (filled, st) := fillItems item.fillAll items st
    (.list filled, st)
  | .array (some item), .tuple items, st =>
    let (filled, st) := fillItems item.fillAll items st
    (.tuple filled, st)
  | _, v, st => (v, st)
  termination_by structural t => t

end

/-- What a producer gives is of some kind, and where it gives nothing it sends no signal. -/
structure Callable.Gives (good : Value → Prop) (f : Callable) : Prop where
  value : ∀ st v, (f.produce st).1 = .ok v → good v
  quiet : ∀ st fault, (f.produce st).1 = .error fault → fault.isSignal = false

/-- The producer of a rule, if it has one, gives values of some kind. -/
def Rule.ProducerGives (good : Value → Prop) (r : Rule) : Prop :=
  ∀ f, r.default = some (.callable f) → f.Gives good

/-- A rule without a custom validator, with a pattern for texts if it has one, whose message,
if it has one, is a text, and whose producer gives values that are not shared. -/
structure Rule.Plain (r : Rule) : Prop where
  custom : r.custom = none
  pattern : r.hasBytesPattern = false
  message : ∀ m, r.message = some m → ∃ s, m = .text s
  default : r.ProducerGives (·.unshared = true)

/-- A schema whose names can be told apart and whose rules are plain. -/
structure Schema.Plain (s : Schema) : Prop where
  names : s.NamesApart
  rules : ∀ r ∈ s.rules, r.Plain

/-- A rule without a custom validator, whose producer gives values that are not shared. -/
structure Rule.SelfContained (r : Rule) : Prop where
  custom : r.custom = none
  default : r.ProducerGives (·.unshared = true)

/-- A schema whose names can be told apart and whose rules are self-contained. -/
structure Schema.SelfContained (s : Schema) : Prop where
  names : s.NamesApart
  rules : ∀ r ∈ s.rules, r.SelfContained

theorem Schema.Plain.selfContained {s : Schema} (plain : s.Plain) : s.SelfContained where
  names := plain.names
  rules r mem := ⟨(plain.rules r mem).custom, (plain.rules r mem).default⟩

end DataContract
