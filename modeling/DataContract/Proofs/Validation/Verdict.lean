/-
# What the verdict of a validation means

A report is valid exactly if the data conform to the schema: the data as the run leaves
them, and equally the data into which all defaults were written beforehand. So a run
neither lets faulty data pass nor refuses data that the defaults make conform.

Where a schema has defaults, the data are a tree. A mapping that is reached in two ways can
get a default from one of its schemas after another one, which does not know the key, has
passed it. A schema without defaults only reads, so there the data may be shared.
-/

import DataContract.Proofs.Validation.Reading
import DataContract.Proofs.Validation.Safety

set_option autoImplicit false

namespace DataContract

/-- A message that is a text can be reported everywhere. -/
theorem Value.speaks_text (s : String) (inner : Bool) : (Value.text s).speaks inner = true := by
  cases inner <;> simp [speaks, elements?, isText]

section

variable [UserCode]

theorem Rule.Plain.bare {r : Rule} (plain : r.Plain) : r.Bare where
  custom := plain.custom
  message cell own := by
    obtain ⟨s, isText⟩ := plain.message _ own
    cases isText

theorem Rule.Plain.harmless {r : Rule} (plain : r.Plain) : r.Harmless where
  searchable _ := plain.pattern
  quiet st f fault isProducer := (plain.default f isProducer).quiet st fault

theorem Rule.Plain.speaks {r : Rule} (plain : r.Plain) (inner : Bool) :
    r.message.all (·.speaks inner) = true := by
  cases own : r.message with
  | none => rfl
  | some m =>
      obtain ⟨s, rfl⟩ := plain.message m own
      exact Value.speaks_text s inner

/-- A schema whose messages are texts speaks wherever it stands. -/
theorem Schema.speaks_of_plain :
    (∀ s : Schema, s.Throughout Schema.Plain → ∀ inner, s.speaks inner = true) ∧
    ∀ t : TypeSpec, t.Throughout Schema.Plain → t.speaks = true ∧ t.speaksAsItem = true := by
  refine Schema.induction ⟨?schema, ?scalar, ?nested, ?untyped, ?array⟩
  case schema =>
    intro s below plain inner
    rw [Schema.throughout_iff] at plain
    rw [Schema.speaks_iff]
    exact fun r mem => ⟨(plain.1.rules r mem).speaks inner, (below r mem (plain.2 r mem)).1⟩
  case scalar => exact fun _ _ => ⟨rfl, rfl⟩
  case nested => exact fun _ below plain => ⟨below plain true, below plain false⟩
  case untyped => exact fun _ => ⟨rfl, rfl⟩
  case array => exact fun _ below plain => ⟨(below plain).2, (below plain).2⟩

/-- A run passes exactly if the data conform, as it leaves them and as the defaults make
them, and data that pass are left as the defaults make them. -/
theorem Schema.walk_passes_iff {s : Schema} (plain : s.Throughout Schema.Plain) {v : Value}
    (tree : v.unshared = true ∨ s.Throughout Schema.WithoutDefaults) (st : Store) :
    ((s.walk v st).result = .ok [] ↔ s.Conforms (s.walk v st).store (s.walk v st).left) ∧
    ((s.walk v st).result = .ok [] ↔ s.Conforms (s.fillAll v st).2 (s.fillAll v st).1) ∧
    ((s.walk v st).result = .ok [] → (s.walk v st).left = (s.fillAll v st).1) := by
  rcases tree with own | without
  · have judged (seen : Store) :
        (s.walk v st).Judges [] (s.Conforms seen) (·.unshared = true) (s.fillAll v st) :=
      s.walk_judges (plain.imp fun _ own => own.selfContained) v st own
    refine ⟨(judged _).passes_iff, ⟨fun passed => ?_, (judged _).pass_of_filled⟩,
      (judged st).left_of_pass⟩
    rw [← (judged st).left_of_pass passed]
    exact (judged _).passes_iff.mp passed
  · have passive : s.Throughout Schema.Passive :=
      Schema.Throughout.and_then
        (fun t plain without r mem => ⟨(plain.rules r mem).custom, without r mem⟩) s plain without
    have reads := s.walk_reads passive v st
    rw [(Schema.fillAll_passive st).1 s passive v, reads.left, reads.store]
    exact ⟨reads.passes_iff, reads.passes_iff, fun _ => rfl⟩

/-- Without custom validators and with texts for messages, a report is valid exactly if
the data conform, and only a date whose numbers are out of range keeps a run from
reporting. Data that are valid are left as the defaults make them. Where there are
defaults to write, the data are a tree. -/
theorem Schema.valid_iff_conforms {s : Schema} (plain : s.Throughout Schema.Plain) {v : Value}
    (tree : v.unshared = true ∨ s.Throughout Schema.WithoutDefaults) (st : Store) :
    (∀ f, (s.validate v st).result = .error f → f = .dateOutOfRange) ∧
    ((∃ report, (s.validate v st).result = .ok report ∧ report.valid = true) ↔
      s.Conforms (s.validate v st).store (s.validate v st).left) ∧
    ((∃ report, (s.validate v st).result = .ok report ∧ report.valid = true) ↔
      s.Conforms (s.fillAll v st).2 (s.fillAll v st).1) ∧
    ∀ report, (s.validate v st).result = .ok report →
      report.data = (s.validate v st).left ∧
        (report.valid = true → report.data = (s.fillAll v st).1) := by
  obtain ⟨walked, filled, leaves⟩ := s.walk_passes_iff plain tree st
  have settles := Schema.settles.1 s (plain.imp fun _ own r mem => (own.rules r mem).bare)
    (plain.imp fun _ own r mem => (own.rules r mem).harmless) false
    (Schema.speaks_of_plain.1 s plain false) v st
  have valid : (∃ report, (s.validate v st).result = .ok report ∧ report.valid = true) ↔
      (s.walk v st).result = .ok [] := by
    rw [Schema.result_validate]
    cases (s.walk v st).result <;> simp [Except.map, Report.valid]
  refine ⟨fun f failed => ?_, valid.trans walked, valid.trans filled, ?_⟩
  · exact Schema.fault_of_settles settles failed
  · intro report reported
    have passed (isValid : report.valid = true) := valid.mp ⟨report, reported, isValid⟩
    rw [Schema.result_validate] at reported
    cases outcome : (s.walk v st).result with
    | error g =>
        rw [outcome] at reported
        cases reported
    | ok found =>
        rw [outcome] at reported
        cases reported
        exact ⟨rfl, fun isValid => leaves (passed isValid)⟩

/-- In a mapping that is reached in two ways, a schema writes a key that another one, which
has passed the mapping before, does not declare. -/
example :
    let age : Rule := { Rule.ofType (.text "age") (.scalar .number) with default := some (.int 7) }
    let s : Schema :=
      ⟨[Rule.ofType (.text "a") (.nested ⟨[], false⟩),
        Rule.ofType (.text "b") (.nested ⟨[age], false⟩)], false⟩
    let data : Value := .object [(.text "a", .shared 0), (.text "b", .shared 0)]
    let found := s.validate data { cells := [.object []] }
    found.result.map (·.valid) = .ok true ∧
      found.store.get? 0 = some (.object [(.text "age", .int 7)]) := by
  cbv

end

/-- A text, an array of numbers, and a nested record whose number has a default. -/
def orderDeclaration : Value :=
  .object
    [(.text "name", .object
        [(.text "type", .callable (.token .text)), (.text "required", .bool true),
          (.text "min", .int 1)]),
      (.text "sizes", .list [.callable (.token .integer)]),
      (.text "owner", .object [(.text "age", .object
        [(.text "type", .callable (.token .integer)), (.text "required", .bool true),
          (.text "default", .int 7)])])]

/-- An order whose owner has no age yet. -/
def orderData : Value :=
  .object
    [(.text "name", .text "x"), (.text "sizes", .list [.int 1, .int 2]),
      (.text "owner", .object [])]

open WithoutUserCode in
theorem valid_iff_conforms_orderData :
    ∃ s, Declaration.compile orderDeclaration true = .ok s ∧ s.Throughout Schema.Plain ∧
      orderData.unshared = true ∧ s.Conforms (s.validate orderData Store.empty).store
        (s.validate orderData Store.empty).left := by
  have plain (s : Schema) (compiled : Declaration.compile orderDeclaration true = .ok s) :
      s.Throughout Schema.Plain := by
    cases compiled
    have literal (r : Rule) (custom : r.custom = none) (pattern : r.pattern = none)
        (message : r.message = none) (default : ∀ f, r.default ≠ some (.callable f)) : r.Plain :=
      ⟨custom, by simp [Rule.hasBytesPattern, pattern], by simp [message],
        fun f isProducer => absurd isProducer (default f)⟩
    refine ⟨⟨⟨?_, ?_⟩, ?_⟩, trivial, trivial, ⟨⟨⟨?_, ?_⟩, ?_⟩, trivial, trivial⟩, trivial⟩
    · simp [Value.identity?, Declaration.requiredRule, Rule.ofType, Declaration.nestedRule]
    · simp [Value.identity?, Declaration.requiredRule, Rule.ofType, Declaration.nestedRule]
    · simp only [List.forall_mem_cons]
      refine ⟨literal _ rfl rfl rfl ?_, literal _ rfl rfl rfl ?_, literal _ rfl rfl rfl ?_,
        List.forall_mem_nil _⟩
      all_goals
        intro f isProducer
        cases isProducer
    · simp [Value.identity?]
    · simp
    · refine List.forall_mem_singleton.mpr (literal _ rfl rfl rfl ?_)
      intro f isProducer
      cases isProducer
  exact ⟨_, rfl, plain _ rfl, rfl,
    (Schema.valid_iff_conforms (plain _ rfl) (.inl rfl) Store.empty).2.1.mp ⟨_, rfl, rfl⟩⟩

end DataContract
