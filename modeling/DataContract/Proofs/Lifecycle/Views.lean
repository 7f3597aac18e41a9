/-
# One outcome in several views

The outcome of a run is read as a verdict, as a list of messages, as violations in groups,
as the lines or the document that the program prints, and as the body or the failure of the
function that validates in one step. They all read the same violations. As messages are
flat, no reader loses or doubles one, and a verdict, a list and a failure are empty
together.

Custom validators and producers may do what they like, but for two things. In the place of
a mapping in a cell there is a mapping afterwards. And where data are validated in one step
with a registry in which there is nobody, they register nobody in it meanwhile, and make
nothing else of the validator.
-/

import DataContract.CommandLine.Run
import DataContract.Proofs.Lifecycle.Telling
import DataContract.Proofs.Validation.FlatMessages
import DataContract.Proofs.Validation.ItemsAsProperties
import DataContract.Proofs.Validation.Safety
import Mathlib.Data.List.Basic

set_option autoImplicit false

namespace DataContract

open CommandLine (violationValue violationLines)

/-! ## Violations as mappings -/

/-- The messages of a violation that is written as a mapping: its message, or the items of it. -/
def Value.toldMessages (v : Value) : List Value :=
  match v.entries?.bind (·.get? (.text "message")) with
  | some (.list parts) => parts
  | some m => [m]
  | none => []

theorem replaceSharedItems_eq_map (content : Nat → Value) (items : List Value) :
    replaceSharedItems content items = items.map (·.replaceShared content) := by
  induction items with
  | nil => rfl
  | cons v rest ih => rw [replaceSharedItems, ih, List.map_cons]

theorem Store.plain_list (st : Store) (items : List Value) :
    st.plain (.list items) = .list (items.map st.plain) := by
  rw [plain, writeOut, Value.replaceShared, replaceSharedItems_eq_map]
  rfl

theorem Store.plain_texts (st : Store) (texts : List String) :
    (texts.map Value.text).map st.plain = texts.map .text := by
  rw [List.map_map]
  rfl

/-- A violation that is written as a mapping has the messages that it has, also where its shared
parts are written out. -/
theorem toldMessages_violationValue (x : Violation) :
    (violationValue x).toldMessages = x.messages := by
  obtain ⟨key, m⟩ := x
  cases m <;> rfl

theorem toldMessages_plain (st : Store) {x : Violation} (flat : x.message.Flat) :
    (st.plain (violationValue x)).toldMessages = x.messages := by
  obtain ⟨key, m⟩ := x
  cases m with
  | text s => rfl
  | folded parts =>
      obtain ⟨texts, rfl⟩ := exists_texts_of_isText flat.2
      have written : st.plain (violationValue ⟨key, .folded (texts.map .text)⟩) =
          .object [(.text "key", st.plain key),
            (.text "message", st.plain (.list (texts.map .text)))] := rfl
      rw [written, st.plain_list, st.plain_texts]
      rfl

/-- The lines that are printed for flat violations and the document that is printed for them have
the same texts in the same order. -/
theorem violationLines_agree (st : Store) {violations : List Violation}
    (flat : ∀ x ∈ violations, x.message.Flat) {texts : List String}
    (own : flattenMessages violations = texts.map .text) :
    violationLines false st violations = .ok (texts.map ("❌ " ++ ·)) ∧
      ∃ items, violationLines true st violations =
          (Json.render false (.list items)).map ([·]) ∧
        items.flatMap Value.toldMessages = texts.map .text := by
  constructor
  · rw [violationLines, if_neg Bool.false_ne_true, own, List.map_map]
    rfl
  · refine ⟨(violations.map violationValue).map st.plain, ?_, ?_⟩
    · rw [violationLines, if_pos rfl, st.plain_list]
    · rw [← own, flattenMessages, List.map_map, List.flatMap_map]
      exact List.flatMap_congr fun x mem => toldMessages_plain st (flat x mem)

/-- All views of a report agree, where `mapping` says whether the data were a mapping. Its messages
are flat, its verdict fits its violations, and it has violations exactly if it has messages. The
messages are those of the violations written as mappings, in order; so the lines that are printed
and the document that is printed have the same texts. -/
structure Report.ViewsAgree (report : Report) (mapping : Bool) : Prop where
  flat : ∀ x ∈ report.violations, x.message.Flat
  verdict : ofParts (mapping && report.violations.isEmpty) report.violations report.data =
    .ok report
  valid : report.valid = true ↔ report.violations = []
  silent : report.violations = [] ↔ report.messages = []
  grouped : report.messages = (report.violations.map violationValue).flatMap Value.toldMessages
  printed : ∃ texts : List String, report.messages = texts.map .text ∧
    ∀ st, violationLines false st report.violations = .ok (texts.map ("❌ " ++ ·)) ∧
      ∃ items, violationLines true st report.violations =
          (Json.render false (.list items)).map ([·]) ∧
        items.flatMap Value.toldMessages = texts.map .text

theorem messageTexts_texts (texts : List String) : messageTexts (texts.map .text) = .ok texts := by
  induction texts with
  | nil => rfl
  | cons t rest ih =>
      rw [List.map_cons, messageTexts, ih]
      rfl

/-! ## Validating in one step -/

namespace Store

theorem upkeep_retains : Store.Upkeep Retains where
  refl _ := ⟨List.prefix_refl _, fun _ _ held => held⟩
  trans first second := ⟨first.registries.trans second.registries,
    fun id v held => second.validators id v (first.validators id v held)⟩
  entries _ _ _ := ⟨List.prefix_refl _, fun _ _ held => held⟩
  item _ _ _ _ := ⟨List.prefix_refl _, fun _ _ held => held⟩

/-- There is such a registry, and there is nobody in it. -/
def Deserted (st : Store) (registry : Nat) : Prop := st.registries[registry]? = some []

theorem Deserted.quiet [UserCode] {view : Setoid Store} {st : Store} {registry : Nat}
    (deserted : st.Deserted registry) : st.Quiet view registry := by
  refine quiet_of_nobody ?_
  rw [Deserted] at deserted
  rw [listeners, deserted]
  rfl

theorem Deserted.of_prefix {st left : Store} {registry : Nat} (deserted : st.Deserted registry)
    (stays : st.registries <+: left.registries) : left.Deserted registry := by
  obtain ⟨more, own⟩ := stays
  have inside : registry < st.registries.length := (List.getElem?_eq_some_iff.mp deserted).1
  rw [Deserted, ← own, List.getElem?_append_left inside]
  exact deserted

/-- A store without its books, in which it counts identities and tellings. -/
def unbooked (st : Store) : Store := { st with told := [], identities := 0 }

/-- Stores look the same where they differ at most in their books. -/
def butBooks : Setoid Store := Setoid.ker unbooked

theorem shown_butBooks : Store.Shown butBooks where
  cells same := (mk.inj same).1.symm
  plugins same := (mk.inj same).2.2.1.symm
  registries same := (mk.inj same).2.2.2.1.symm
  validators := by
    rintro st st' same id v ⟨last, held⟩
    have validators : st.validators = st'.validators := (mk.inj same).2.2.2.2.1
    exact ⟨last, validators ▸ held⟩
  told _ _ := rfl
  identities _ _ := rfl

/-- A store without its books and its validators: all else that functions find in it. -/
def bare (st : Store) : Store := { st.unbooked with validators := [] }

/-- What a declaration stands for where a body is validated in one step: the schema of a validator,
or what compiles to a schema. There is nobody in the registry that is told. -/
def Uses (st : Store) (registry : Nat) (declaration : Value) (s : Schema) : Prop :=
  match declaration with
  | .validator id _ => ∃ v, st.validators[id]? = some v ∧ v.schema = s ∧ st.Deserted v.registry
  | _ => Declaration.compile (st.plain declaration) true = .ok s ∧ st.Deserted registry

end Store

section

variable [UserCode]

/-- What a declaration stands for is found or made, and all that functions find in the store stays
but for its books and the new validator. -/
theorem validatorOf_runIn {st : Store} {registry : Nat} {declaration : Value} {s : Schema}
    (uses : st.Uses registry declaration s) :
    ∃ id left v, (validatorOf registry declaration).runIn st = (.ok id, left) ∧
      left.HasValidator id v ∧ v.schema = s ∧ left.Deserted v.registry ∧ left.bare = st.bare := by
  have made (compiled : Declaration.compile (st.plain declaration) true = .ok s)
      (deserted : st.Deserted registry) :
      ∃ id left v, (newValidator registry declaration true).runIn st = (.ok id, left) ∧
        left.HasValidator id v ∧ v.schema = s ∧ left.Deserted v.registry ∧
          left.bare = st.bare := by
    obtain ⟨schemaId, left, same, ran⟩ :=
      newValidator_quiet Store.shown_butBooks deserted.quiet declaration true
    rw [compiled] at ran
    have stays : left.Deserted registry := by
      rw [Store.Deserted, Store.shown_butBooks.registries same]
      exact deserted
    have books : st.unbooked = left.unbooked := same
    refine ⟨_, _, ⟨schemaId, s, registry, none⟩, ran, ⟨none, List.getElem?_concat_length⟩, rfl,
      stays, ?_⟩
    exact congrArg (fun st : Store => { st with validators := [] }) books.symm
  cases declaration with
  | validator id own =>
      obtain ⟨v, held, schema, deserted⟩ := uses
      exact ⟨id, st, v, rfl, .of_some held, schema, deserted, rfl⟩
  | _ => exact made uses.1 uses.2

/-- Validating in one step is a run from a store in which functions find what they find in the given
one, and an answer to what it reports. -/
theorem validateBody_runIn (retains : ∀ f : Callable, f.Keeps Store.Retains) {st : Store}
    {registry : Nat} {declaration : Value} {s : Schema} (uses : st.Uses registry declaration s)
    (data : Value) (options : BodyOptions) :
    ∃ given, given.bare = st.bare ∧ ∀ report, (s.validate data given).result = .ok report →
      ((validateBody registry data declaration options).runIn st).1 =
        s.answer options (s.validate data given).store report := by
  obtain ⟨id, begun, v, chosen, held, rfl, deserted, bare⟩ := validatorOf_runIn uses
  -- The registry stays deserted while the schema runs, so the event after the run is quiet too.
  have still (between : Store) (same : Store.butBooks begun between) :
      (v.schema.validate data between).store.HasValidator id v ∧
        (v.schema.validate data between).store.Quiet Store.butBooks v.registry := by
    have kept : between.Retains (v.schema.validate data between).store :=
      v.schema.walk_keeps Store.upkeep_retains retains data between
    have there : between.Deserted v.registry := by
      rw [Store.Deserted, Store.shown_butBooks.registries same]
      exact deserted
    exact ⟨kept.validators id v (Store.shown_butBooks.validators same id v held),
      (there.of_prefix kept.registries).quiet⟩
  obtain ⟨given, left, same, sameLeft, -, ran⟩ := requireBody_quiet Store.shown_butBooks held
    deserted.quiet data still options
  have books : begun.unbooked = given.unbooked := same
  refine ⟨given, ?_, fun report returned => ?_⟩
  · exact (congrArg (fun st : Store => { st with validators := [] }) books.symm).trans bare
  · rw [returned] at ran
    rw [validateBody, Action.runIn_bind_of_ok chosen, ran.1, Schema.answer, Schema.answer,
      Store.head_congr (Store.shown_butBooks.cells sameLeft)]

/-! ## All views -/

/-- Data in which nothing is found are a mapping, also as they are left. -/
theorem Schema.entries?_of_valid (kept : ∀ f : Callable, f.Keeps Store.KeepsMappings) {s : Schema}
    {v : Value} {st : Store} {report : Report} (returned : (s.validate v st).result = .ok report)
    (valid : report.violations = []) :
    (st.head v).isMapping = true ∧
      ∃ entries, ((s.validate v st).store.head report.data).entries? = some entries := by
  rw [result_validate] at returned
  obtain ⟨found, walked, rfl⟩ := Declaration.map_eq_ok.mp returned
  have mapping : (st.head v).isMapping = true := by
    by_contra other
    rw [s.walk_of_not_mapping (Bool.eq_false_of_not_eq_true other)] at walked
    cases walked
    cases valid
  refine ⟨mapping, Option.isSome_iff_exists.mp ?_⟩
  rw [← Value.isMapping_eq]
  exact s.isMapping_head_walk kept mapping

end

namespace HouseRule

/-- A house rule that nobody meets. It counts whom it has turned away. -/
def turnAway : Function :=
  { Function.refusing with
    judge := fun _ _ record _ st =>
      (⟨.ok (.text "too loud"), record, none⟩, { st with memory := st.memory ++ [.null] }) }

/-- Every function is the house rule. -/
scoped instance : UserCode := ⟨fun _ => turnAway⟩

/-- The house rule leaves all of the store but what functions remember. -/
theorem keeps {keeps : Store → Store → Prop} (refl : ∀ st, keeps st st)
    (memory : ∀ (st : Store) memory, keeps st { st with memory }) (f : Callable) :
    f.Keeps keeps where
  produce st := by
    cases f with
    | token t => cases t <;> exact refl st
    | function id name => exact refl st
  judge key v record s st := by
    cases f with
    | token t => exact refl st
    | function id name => exact memory st _

/-- A guest list: a party has a host with a name, and its size meets the house rule. -/
def declaration : Value :=
  .object [
    (.text "party", .object [(.text "host", .object [(.text "name", .callable (.token .text))])]),
    (.text "size", .object [(.text "type", .callable (.token .integer)),
      (.text "custom", .callable (.function 0 "turnAway")),
      (.text "message", .text "Property size is wrong")])]

/-- A party without a host's name, and with a size that is no number. -/
def party : Value :=
  .object [(.text "party", .object [(.text "host", .object [])]), (.text "size", .text "ten")]

end HouseRule

end DataContract
