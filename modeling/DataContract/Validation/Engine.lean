/-
# Validation

A record is validated rule by rule in declaration order: a default is written
where the value is absent, a required value that is still absent is reported, and
a present value goes to the rule's custom validator and to the check of its type.
Nothing that is found stops the run; what a custom validator raises does, and so
does a signal that a producer of defaults raises.

The walk follows the schema, so it ends for every value, also for one that contains
itself. Items of an array are asked one by one until one does not match, so defaults
are written into the items up to that one.
-/

import DataContract.Validation.Callable
import DataContract.Validation.Checks
import DataContract.Validation.Visit

set_option autoImplicit false

namespace DataContract

/-- Whether a schema declares a key. -/
def Schema.declares (s : Schema) (key : Value) : Bool := s.rules.any (·.name.equal key)

/-- The rule for a key, if it is declared. -/
def Schema.lookup (s : Schema) (key : Value) : Except Fault (Option Rule) :=
  if key.isKey then .ok (s.rules.find? (·.name.equal key)) else .error .notAKey

/-- The violations for the keys that a strict schema does not declare. -/
def Schema.undeclared (s : Schema) (entries : Entries) : List Violation :=
  if s.flex then []
  else (entries.keys.filter (!s.declares ·)).map fun key => ⟨key, .text (undeclaredText key)⟩

namespace Rule

/-- The value of a rule's property, absent also where it is `null`. -/
def valueIn (r : Rule) (entries : Entries) : Option Value :=
  match entries.get? r.name with
  | some .null => none
  | found => found

/-- The violation of a rule with a message of the library, which the rule's own
message replaces unless that is empty. -/
def report (r : Rule) (st : Store) (message : String) : Except Fault Violation :=
  match r.message.map st.head with
  | none => .ok ⟨r.name, .text message⟩
  | some own =>
    if own.truthy then (Message.ofValue own).map (⟨r.name, ·⟩)
    else .ok ⟨r.name, .text message⟩

/-- The violations of a rule: folded messages stay as they are. -/
def reportAll (r : Rule) (st : Store) (messages : List Message) :
    Except Fault (List Violation) :=
  messages.mapM fun message =>
    match message with
    | .text s => r.report st s
    | .folded parts => .ok ⟨r.name, .folded parts⟩

/-- What the answer of a custom validator means: a text is a message, and anything
but the truth value true is a failure. -/
def customFailures (r : Rule) : Value → List String
  | .text s => [s]
  | .bool true => []
  | _ => ["Custom validation failed for property " ++ r.name.shown]

end Rule

/-- A present value after its custom validator: what that has found, the value as it is now,
and whether it still stands in its place. -/
structure Judged where
  found : List Violation
  value : Value
  inPlace : Bool

variable [UserCode]

namespace Rule

/-- The default of a rule: what its producer gives, or a text or number as it is. A producer
that fails gives none, and only its signals are let through. -/
def defaultValue (r : Rule) (st : Store) : Except Fault (Option Value) × Store :=
  match r.default with
  | some (.callable f) =>
    match f.produce st with
    | (.ok v, st) => (.ok (some v), st)
    | (.error fault, st) => (if fault.isSignal then .error fault else .ok none, st)
  | some (.text s) => (.ok (some (.text s)), st)
  | some v => (.ok (if v.isNumber then some v else none), st)
  | none => (.ok none, st)

/-- Writes the default of a rule where its value is absent. -/
def fill (r : Rule) (home : Home) (entries : Entries) (st : Store) : Visit Entries Unit :=
  let now := home.look entries st
  if home.canWrite st && (r.valueIn now).isNone then
    match r.defaultValue st with
    | (.ok none, st) => Visit.done () (home.look now st) st
    | (.ok (some v), st) =>
      let written := home.write ((home.look now st).put r.name v) st
      Visit.done () written.1 written.2
    | (.error fault, st) => ⟨.error fault, home.look now st, st, []⟩
  else Visit.done () now st

/-- Asks the custom validator of a rule about a present value. A list or mapping in hand is
then as the validator has left it; any other value is what it was. -/
def judgeCustom (r : Rule) (s : Schema) (home : Home) (v : Value) (entries : Entries)
    (st : Store) : Visit Entries Judged :=
  match r.custom with
  | none => Visit.done ⟨[], v, true⟩ entries st
  | some f =>
    let (judgement, st) := f.judge r.name v (home.value entries) s st
    let entries := home.look ((judgement.record.entries?).getD entries) st
    let there := (entries.get? r.name).getD v
    let judged (found : List Violation) : Judged :=
      ⟨found, v.leftAs (judgement.moved.getD there), judgement.moved.isNone⟩
    Visit.ofExcept (do
      let answer ← judgement.answer
      let found ← (r.customFailures answer).mapM (r.report st)
      return judged found) entries st

end Rule

/-- Walks over a mapping by its entries, wherever it stands; data that is no mapping is
reported. -/
def Walk.ofEntries (walk : Home → Entries → Store → Visit Entries (List Violation)) :
    Walk (List Violation) := fun v st =>
  match v.home? st with
  | some (home, entries) => (walk home entries st).embed home.value
  | none => Visit.done [.notARecord] v st

mutual

/-- Validates a value against a schema. -/
def Schema.walk : Schema → Walk (List Violation)
  | ⟨rules, flex⟩ =>
    Walk.ofEntries fun home entries st =>
      let s : Schema := ⟨rules, flex⟩
      ((walkRules rules s home entries st).map (s.undeclared entries ++ ·)).tally
        fun violations => ⟨rules.length, violations.length⟩
  termination_by structural s => s

/-- Applies rules in order. -/
def walkRules : List Rule → Schema → Home → Entries → Store → Visit Entries (List Violation)
  | [], _, _, entries, st => Visit.done [] entries st
  | r :: rest, s, home, entries, st =>
    (r.walk s home entries st).andThen fun found entries st =>
      (walkRules rest s home entries st).map (found ++ ·)
  termination_by structural rules => rules

/-- Applies one rule to a record. -/
def Rule.walk (r : Rule) (s : Schema) (home : Home) (entries : Entries) (st : Store) :
    Visit Entries (List Violation) :=
  match r with
  | { name, type, required, custom, pattern, min, max, choices, default, message } =>
    let r : Rule :=
      { name, type, required, custom, pattern, min, max, choices, default, message }
    (r.fill home entries st).andThen fun _ entries st =>
      match r.valueIn entries with
      | none =>
        Visit.ofExcept
          (if required then (r.report st (missingText name)).map ([·]) else .ok []) entries st
      | some v =>
        (r.judgeCustom s home v entries st).andThen fun judged entries st =>
          let checked := (type.check r name judged.value st).settle
            (home.putBack name judged.value judged.inPlace entries)
          (checked.check fun messages => r.reportAll checked.store messages).map
            (judged.found ++ ·)
  termination_by structural r

/-- The messages for a present value that does not have the type of a rule or does
not keep to the rule's bounds. -/
def TypeSpec.check : TypeSpec → Rule → Value → Walk (List Message)
  | .scalar kind, r, key, v, st =>
    Visit.ofExcept ((r.scalarFailures key kind (st.head v)).map (·.map .text)) v st
  | .nested s, _, key, v, st =>
    if !(st.head v).isMapping then
      Visit.done [.text (mismatchText key (st.head v) Scalar.object.label)] v st
    else (s.walk v st).check fun violations =>
      if violations.isEmpty then .ok []
      else (foldMessages key (flattenMessages violations)).map ([·])
  | .array none, r, key, v, st =>
    match (st.head v).items? with
    | none => Visit.done [.text (mismatchText key (st.head v) Kind.array.label)] v st
    | some items => Visit.done ((r.lengthFailures key items.length).map .text) v st
  | .array (some item), r, key, v, st =>
    match (st.head v).items? with
    | none => Visit.done [.text (mismatchText key (st.head v) Kind.array.label)] v st
    | some items =>
      (Walk.ofItems item.takes v st).map fun all =>
        (r.lengthFailures key items.length).map .text ++
          (if all then [] else [.text (itemText key item)])
  termination_by structural t => t

/-- Whether a value matches an item type: a nested item has to be valid, and an
inner array is checked all the way down. -/
def TypeSpec.takes : TypeSpec → Walk Bool
  | .scalar kind, v, st => Visit.ofExcept (kind.fits (st.head v)) v st
  | .nested s, v, st => (s.walk v st).map List.isEmpty
  | .array none, v, st => Visit.done (st.head v).isArray v st
  | .array (some item), v, st => Walk.ofItems item.takes v st
  termination_by structural t => t

end

/-- Validates a value and reports on it. -/
def Schema.validate (s : Schema) (v : Value) (st : Store) : Visit Value Report :=
  let walked := s.walk v st
  walked.map (⟨·, walked.left⟩)

end DataContract
