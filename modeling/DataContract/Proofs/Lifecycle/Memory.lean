/-
# What a validator remembers

A validator is called any number of times. What happens between two calls and what functions
do while they are called leaves its record alone, as long as they do not call back into it; they
may well raise, in any call. What it remembers is then the report of the latest call of
`validate` that returned: a call that fails, a call of `evaluate` and the reading of an outcome
change nothing of it. So what reading an outcome gives is known from the calls.
-/

import DataContract.Proofs.Lifecycle.Telling

set_option autoImplicit false

namespace DataContract

/-- What a validator is asked for. -/
inductive Call where
  | validate (data : Value)
  | evaluate (data : Value)
  | messages
  | violations
  | body (options : BodyOptions)

/-- A call, and the store in which it was made. -/
structure Use where
  call : Call
  before : Store

/-- What a validator answers. -/
inductive Answer where
  | verdict (valid : Bool)
  | report (report : Report)
  | messages (messages : List Value)
  | violations (violations : List Violation)
  | body (entries : Entries)

section

variable [UserCode]

/-- What a call of the validator with a number does. -/
def Call.act (id : Nat) : Call → Action Answer
  | .validate data => do return .verdict (← DataContract.validate id data)
  | .evaluate data => do return .report (← DataContract.evaluate id data)
  | .messages => do return .messages (← readMessages id)
  | .violations => do return .violations (← readViolations id)
  | .body options => do return .body (← readBody id options)

/-- The report that a call leaves to be remembered: that of validating, if it returns. -/
def Use.report? (id : Nat) (u : Use) : Option Report :=
  match u.call with
  | .validate data => ((evaluate id data).runIn u.before).1.toOption
  | _ => none

theorem Use.report?_validate (id : Nat) (data : Value) (st : Store) :
    Use.report? id ⟨.validate data, st⟩ = ((evaluate id data).runIn st).1.toOption := rfl

/-- A validator was called from a store on, in order, and has come to another store. Between the
calls anything may happen that leaves the record of the validator as it is. -/
inductive Session (id : Nat) (start : Store) : List Use → Store → Prop where
  | start : Session id start [] start
  | call {uses : List Use} {st : Store} (before : Session id start uses st) (c : Call) :
      Session id start (uses ++ [⟨c, st⟩]) ((c.act id).runIn st).2
  | elsewhere {uses : List Use} {st later : Store} (before : Session id start uses st)
      (same : later.validators[id]? = st.validators[id]?) : Session id start uses later

/-- The report of the latest call that has left one. -/
def lastReport (id : Nat) (uses : List Use) : Option Report :=
  (uses.filterMap (Use.report? id)).getLast?

theorem lastReport_concat (id : Nat) (uses : List Use) (u : Use) :
    lastReport id (uses ++ [u]) = (u.report? id).or (lastReport id uses) := by
  rw [lastReport, List.filterMap_append, List.getLast?_append]
  cases found : u.report? id <;> simp [found, lastReport]

/-! ## One call -/

/-- A call of `validate` returns exactly if it leaves a report, and gives its verdict. -/
theorem Use.returns_iff (id : Nat) (data : Value) (st : Store) (valid : Bool) :
    (((Call.validate data).act id).runIn st).1 = .ok (.verdict valid) ↔
      ∃ report, Use.report? id ⟨.validate data, st⟩ = some report ∧ report.valid = valid := by
  rw [Call.act, Action.runIn_bind, validate_runIn_evaluate, report?_validate]
  rcases (evaluate id data).runIn st with ⟨f | report, left⟩ <;> simp [Except.toOption]

/-! ## What a call leaves -/

/-- From one store to another a validator keeps its record. -/
def Store.KeepsRecord (id : Nat) (st left : Store) : Prop :=
  ∀ v, st.validators[id]? = some v → left.validators[id]? = some v

omit [UserCode] in
theorem Store.upkeep_keepsRecord (id : Nat) : Store.Upkeep (Store.KeepsRecord id) where
  refl _ _ held := held
  trans first second v held := second v (first v held)
  entries _ _ _ _ held := held
  item _ _ _ _ _ held := held

section Kept

variable {id : Nat} (kept : ∀ f : Callable, f.Preserves (Store.KeepsRecord id))

include kept

/-- A validator remembers the report that a call leaves, and else what it did before. -/
theorem Call.last_act (call : Call) {st : Store} {v : Validator}
    (held : st.validators[id]? = some v) :
    ((call.act id).runIn st).2.validators[id]? =
      some { v with last := (Use.report? id ⟨call, st⟩).or v.last } := by
  have upkeep := Store.upkeep_keepsRecord id
  have told (event : HookEvent) :
      ((trigger v.registry event .null).runIn st).2.validators[id]? = some v :=
    trigger_keeps upkeep kept (fun _ _ _ _ _ held => held) v.registry event .null st v held
  have evaluated (data : Value) :
      ((DataContract.evaluate id data).runIn st).2.validators[id]? = some v :=
    evaluate_keeps upkeep kept (fun _ _ _ _ _ held => held) id data st v held
  -- Both keep the record, so only what `validate` does after evaluating can change it.
  cases call with
  | validate data =>
      have left := evaluated data
      rw [act, Action.after_bind fun _ => Action.still_pure _, validate_runIn_evaluate,
        Use.report?_validate]
      rcases ran : (DataContract.evaluate id data).runIn st with ⟨f | report, between⟩ <;>
        rw [ran] at left
      · exact left
      · exact (Store.HasValidator.of_some left).remembering report
  | evaluate data =>
      rw [act, Action.after_bind fun _ => Action.still_pure _]
      exact evaluated data
  | messages =>
      change _ = some v
      rw [act, Action.after_bind fun _ => Action.still_pure _, readMessages_runIn held]
      split
      · exact told .getValidationErrors
      · exact held
  | violations =>
      change _ = some v
      rw [act, Action.after_bind fun _ => Action.still_pure _, readViolations_runIn held]
      split
      · exact told .getGroupedValidationErrors
      · exact held
  | body options =>
      rw [act, Action.after_bind fun _ => Action.still_pure _, after_readBody held]
      exact held

/-! ## All calls -/

/-- A validator that begins without a report remembers that of the latest call that left one. -/
theorem Session.last {start st : Store} {uses : List Use} (session : Session id start uses st)
    {v : Validator} (held : start.validators[id]? = some v) (fresh : v.last = none) :
    st.validators[id]? = some { v with last := lastReport id uses } := by
  induction session with
  | start => rw [held, lastReport, List.filterMap_nil, List.getLast?_nil, ← fresh]
  | call before c ih => rw [c.last_act kept ih, lastReport_concat]
  | elsewhere before same ih => exact same.trans ih

end Kept

theorem newValidator_fresh {registry id : Nat} {declaration : Value} {strict : Bool}
    {st left : Store}
    (made : (newValidator registry declaration strict).runIn st = (.ok id, left)) :
    ∃ v, left.validators[id]? = some v ∧ v.registry = registry ∧ v.last = none := by
  obtain ⟨⟨schemaId, schema⟩, between, -, added⟩ := Action.runIn_bind_eq_ok_iff.mp made
  cases added
  exact ⟨_, List.getElem?_concat_length, rfl, rfl⟩

/-- What reading the outcome of a validator gives, as it follows from the report `last`: without
one it is refused and nothing happens, and with one it is what the report says, or the body of
its data as they stand, unless a plugin fails. -/
structure Store.ReadsAs (st : Store) (id : Nat) (v : Validator) (last : Option Report) : Prop where
  refused : last = none →
    (readMessages id).runIn st = (.error (.usage (.notValidated .messages)), st) ∧
    (readViolations id).runIn st = (.error (.usage (.notValidated .grouped)), st) ∧
    ∀ options, (readBody id options).runIn st = (.error (.usage (.notValidated .body)), st)
  messages : ∀ report, last = some report →
    let told := (trigger v.registry .getValidationErrors .null).runIn st
    (readMessages id).runIn st = (told.1.map fun _ => report.messages, told.2) ∧
      ∀ e, told.1 = .error e → ∃ f, e = .fault f
  violations : ∀ report, last = some report →
    let told := (trigger v.registry .getGroupedValidationErrors .null).runIn st
    (readViolations id).runIn st = (told.1.map fun _ => report.violations, told.2) ∧
      ∀ e, told.1 = .error e → ∃ f, e = .fault f
  body : ∀ report, last = some report → ∀ options,
    (readBody id options).runIn st =
      match (st.head report.data).entries? with
      | some entries => (.ok (v.schema.project options entries), st)
      | none => (.error (.usage .notARecord), st)

theorem Store.readsAs {st : Store} {id : Nat} {v : Validator}
    (held : st.validators[id]? = some v) : st.ReadsAs id v v.last where
  refused none := by
    have messages := readMessages_runIn held
    have violations := readViolations_runIn held
    rw [none] at messages violations
    exact ⟨messages, violations, readBody_runIn_of_none held none⟩
  messages report some := by
    have read := readMessages_runIn held
    rw [some] at read
    exact ⟨read, trigger_onlyFaults _ _ _ st⟩
  violations report some := by
    have read := readViolations_runIn held
    rw [some] at read
    exact ⟨read, trigger_onlyFaults _ _ _ st⟩
  body report some := readBody_runIn held some

/-- Whatever calls were made of a new validator, with any data and any functions that do not call
back into it, it remembers the report of the latest `validate` that returned, and nothing if none
has. What reading its outcome gives follows from that report and from the data as they stand
now. -/
theorem validator_remembers_last {registry id : Nat}
    (kept : ∀ f : Callable, f.Preserves (Store.KeepsRecord id)) {declaration : Value}
    {strict : Bool} {before start st : Store} {uses : List Use}
    (made : (newValidator registry declaration strict).runIn before = (.ok id, start))
    (session : Session id start uses st) :
    ∃ v, start.validators[id]? = some v ∧ v.registry = registry ∧
      st.validators[id]? = some { v with last := lastReport id uses } ∧
      st.ReadsAs id v (lastReport id uses) ∧
      ∀ u ∈ uses, ∀ data, u.call = .validate data → ∀ valid,
        ((u.call.act id).runIn u.before).1 = .ok (.verdict valid) ↔
          ∃ report, u.report? id = some report ∧ report.valid = valid := by
  obtain ⟨v, held, own, fresh⟩ := newValidator_fresh made
  have remembered := session.last kept held fresh
  have reads := Store.readsAs remembered
  refine ⟨v, held, own, remembered, ⟨reads.1, reads.2, reads.3, reads.4⟩, ?_⟩
  rintro ⟨call, before⟩ - data rfl valid
  exact Use.returns_iff id data before valid

end

namespace Faltering

/-- A custom validator that counts its calls: it refuses at first, raises when it is called for
the second time, and agrees from then on. -/
def judge : Function :=
  { Function.refusing with
    judge := fun _ _ record _ st =>
      let counted := { st with memory := st.memory ++ [.null] }
      match st.memory.length with
      | 0 => (⟨.ok (.bool false), record, none⟩, counted)
      | 1 => (⟨.error (.raised ⟨"Busy", false⟩ "Try again"), record, none⟩, counted)
      | _ => (⟨.ok (.bool true), record, none⟩, counted) }

/-- Every function is the validator that counts. -/
scoped instance : UserCode := ⟨fun _ => judge⟩

theorem preserves (id : Nat) (f : Callable) : f.Preserves (Store.KeepsRecord id) where
  produce st v held := by
    cases f with
    | token t => cases t <;> exact held
    | function n name => exact held
  judge key w record s st v held := by
    cases f with
    | token t => exact held
    | function n name =>
        rw [Callable.judge, Store.within]
        dsimp only [UserCode.function, judge]
        split <;> exact held
  call payload st v held := by cases f <;> exact held

/-- A title is a text, and the validator agrees with it. -/
def declaration : Value :=
  .object [(.text "title", .object [(.text "type", .callable (.token .text)),
    (.text "custom", .callable (.function 0 "judge"))])]

end Faltering

open Faltering in
/-- Messages are refused before a validation. After one that has found something, another in which
the custom validator raises and an evaluation that finds nothing, they are still those of the
first. -/
theorem validator_remembers_last_faltering :
    ∃ start uses st, let data : Value := .object [(.text "title", .text "On keys")]
      (newValidator defaultRegistry declaration false).runIn Store.empty = (.ok 0, start) ∧
        Session 0 start uses st ∧
        uses.map Use.call = [.messages, .validate data, .validate data, .evaluate data] ∧
        (readMessages 0).runIn start = (.error (.usage (.notValidated .messages)), start) ∧
        ∃ messages, ((readMessages 0).runIn st).1 = .ok messages ∧
          (messageTexts messages).toOption =
            some ["Custom validation failed for property title"] := by
  let data : Value := .object [(.text "title", .text "On keys")]
  obtain ⟨start, made⟩ : ∃ start,
      (newValidator defaultRegistry declaration false).runIn Store.empty = (.ok 0, start) :=
    ⟨_, rfl⟩
  obtain ⟨uses, st, session, calls, texts, told⟩ : ∃ uses st, Session 0 start uses st ∧
      uses.map Use.call = [.messages, .validate data, .validate data, .evaluate data] ∧
      (lastReport 0 uses).bind (fun report => (messageTexts report.messages).toOption) =
        some ["Custom validation failed for property title"] ∧
      ((trigger defaultRegistry .getValidationErrors .null).runIn st).1.isOk = true := by
    cases made
    exact ⟨_, _, (((Session.start.call .messages).call (.validate data)).call
      (.validate data)).call (.evaluate data), rfl, by decide +kernel, by decide +kernel⟩
  obtain ⟨_, -, -, -, atStart, -⟩ := validator_remembers_last (preserves 0) made .start
  obtain ⟨v, -, own, -, reads, -⟩ := validator_remembers_last (preserves 0) made session
  obtain ⟨report, last, texts⟩ := Option.bind_eq_some_iff.mp texts
  have read := (reads.messages report last).1
  rw [own] at read
  refine ⟨start, uses, st, made, session, calls, (atStart.refused rfl).1, report.messages, ?_,
    texts⟩
  rw [read]
  cases outcome : ((trigger defaultRegistry .getValidationErrors .null).runIn st).1 with
  | ok _ => rfl
  | error _ =>
      rw [outcome] at told
      cases told

end DataContract
