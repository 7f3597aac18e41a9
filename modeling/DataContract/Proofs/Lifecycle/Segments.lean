/-
# The events of one operation

Every operation with registries and validators has its segment of events, which depends on how
far it comes: a plugin that fails ends the segment with the event that it was told about, and a
declaration that is refused or a function that fails leaves out the event that would have
followed.

A function that is called on the way may do such operations too. Their segments are its own, one
level deeper, and lie between two events of the segment in which it is called.
-/

import DataContract.Proofs.Lifecycle.Memory
import DataContract.Proofs.Lifecycle.Occasions

set_option autoImplicit false

namespace DataContract

/-- On an occasion, a registry is told about an event with some payload. -/
def Occasion.Tells (o : Occasion) (registry : Nat) (event : HookEvent) (payload : Value) : Prop :=
  o.registry = registry ∧ o.event = event ∧ o.payload = payload

/-- A value is passed on: what is no list or mapping in hand is the same as before, and a shared
one is the same cell. -/
def Value.PassedOn (v left : Value) : Prop := v.isContainer = false → left = v

theorem Value.PassedOn.trans {v between left : Value} (first : v.PassedOn between)
    (second : between.PassedOn left) : v.PassedOn left := by
  intro inHand
  have here := first inHand
  subst here
  exact second inHand

section

variable [UserCode]

/-- The events of compiling a declaration, by how it ends. -/
inductive Compiling (registry : Nat) (declaration : Value) (strict : Bool) :
    Except Failure (Nat × Schema) → List Occasion → Prop where
  /-- A plugin has failed before. -/
  | aborted {before : Occasion} {f : Fault} (told : before.Tells registry .beforeParse declaration)
      (failed : before.outcome = .error (.fault f)) :
      Compiling registry declaration strict (.error (.fault f)) [before]
  /-- The declaration is refused. -/
  | refused {before : Occasion} {given : Value} {e : SchemaError}
      (told : before.Tells registry .beforeParse declaration) (passed : before.outcome = .ok given)
      (fails : Declaration.compile (before.after.plain given) strict = .error e) :
      Compiling registry declaration strict (.error (.declaration e)) [before]
  /-- A plugin has failed after. -/
  | abortedAfter {before after : Occasion} {given : Value} {s : Schema} {id : Nat} {f : Fault}
      (told : before.Tells registry .beforeParse declaration) (passed : before.outcome = .ok given)
      (compiles : Declaration.compile (before.after.plain given) strict = .ok s)
      (toldAfter : after.Tells registry .afterParse (.schema id s))
      (failed : after.outcome = .error (.fault f)) :
      Compiling registry declaration strict (.error (.fault f)) [before, after]
  /-- The declaration is compiled. -/
  | compiled {before after : Occasion} {given left : Value} {s : Schema} {id : Nat}
      (told : before.Tells registry .beforeParse declaration) (passed : before.outcome = .ok given)
      (compiles : Declaration.compile (before.after.plain given) strict = .ok s)
      (toldAfter : after.Tells registry .afterParse (.schema id s))
      (passedAfter : after.outcome = .ok left) :
      Compiling registry declaration strict (.ok (id, s)) [before, after]

/-- The events of reporting on data, by how it ends. -/
inductive Reporting (v : Validator) (data : Value) :
    Except Failure Report → List Occasion → Prop where
  /-- A plugin has failed before. -/
  | aborted {before : Occasion} {f : Fault} (told : before.Tells v.registry .beforeValidate data)
      (failed : before.outcome = .error (.fault f)) :
      Reporting v data (.error (.fault f)) [before]
  /-- The run of the schema has stopped. -/
  | stopped {before : Occasion} {given : Value} {f : Fault}
      (told : before.Tells v.registry .beforeValidate data) (passed : before.outcome = .ok given)
      (stops : (v.schema.validate given before.after).result = .error f) :
      Reporting v data (.error (.fault f)) [before]
  /-- A plugin has failed after. -/
  | abortedAfter {before after : Occasion} {given : Value} {report : Report} {f : Fault}
      (told : before.Tells v.registry .beforeValidate data) (passed : before.outcome = .ok given)
      (reports : (v.schema.validate given before.after).result = .ok report)
      (same : data.PassedOn report.data)
      (toldAfter : after.Tells v.registry .afterValidate report.data)
      (failed : after.outcome = .error (.fault f)) :
      Reporting v data (.error (.fault f)) [before, after]
  /-- The data are reported on. -/
  | reported {before after : Occasion} {given left : Value} {report : Report}
      (told : before.Tells v.registry .beforeValidate data) (passed : before.outcome = .ok given)
      (reports : (v.schema.validate given before.after).result = .ok report)
      (same : data.PassedOn report.data)
      (toldAfter : after.Tells v.registry .afterValidate report.data)
      (passedAfter : after.outcome = .ok left) :
      Reporting v data (.ok { report with data := left }) [before, after]

/-- The events of validating data for their body: those of a report, and that of reading the
messages if the data are refused. -/
inductive Helping (v : Validator) (data : Value) : List Occasion → Prop where
  | failed {f : Failure} {os : List Occasion} (reporting : Reporting v data (.error f) os) :
      Helping v data os
  | accepted {report : Report} {os : List Occasion} (reporting : Reporting v data (.ok report) os)
      (valid : report.valid = true) : Helping v data os
  | refused {report : Report} {os : List Occasion} {o : Occasion}
      (reporting : Reporting v data (.ok report) os) (invalid : report.valid = false)
      (told : o.Tells v.registry .getValidationErrors .null) : Helping v data (os ++ [o])

/-- The events of reading an outcome: one if there is an outcome, and none if it is refused. -/
def Validator.Asked (v : Validator) (event : HookEvent) (os : List Occasion) : Prop :=
  match v.last with
  | some _ => ∃ o, os = [o] ∧ o.Tells v.registry event .null
  | none => os = []

/-- The events of a call of a validator, by what it remembers and how the call ends. -/
def Call.Segment (st : Store) (id : Nat) (v : Validator) : Call → List Occasion → Prop
  | .validate data, os => ∃ ended, Reporting v data ended os ∧
      ((DataContract.validate id data).runIn st).1 = ended.map Report.valid
  | .evaluate data, os => Reporting v data ((DataContract.evaluate id data).runIn st).1 os
  | .messages, os => v.Asked .getValidationErrors os
  | .violations, os => v.Asked .getGroupedValidationErrors os
  | .body _, os => os = []

/-- What is done with registries and validators. Where no registry is named, it is the default
one, and an empty registry is named as any other. -/
inductive Operation where
  | extend (registry : Nat) (plugins : Value)
  | compile (hooks : Option Nat) (declaration : Value) (strict : Bool)
  | construct (hooks : Option Nat) (declaration : Value) (strict : Bool)
  | call (id : Nat) (c : Call)
  | validateBody (hooks : Option Nat) (data declaration : Value) (options : BodyOptions)

namespace Operation

/-- What an operation does. -/
def act : Operation → Action Unit
  | .extend registry plugins => extendRegistry registry plugins
  | .compile hooks declaration strict => do
    let _ ← compileIn (hooks.getD defaultRegistry) declaration strict
  | .construct hooks declaration strict => do
    let _ ← newValidator (hooks.getD defaultRegistry) declaration strict
  | .call id c => do
    let _ ← c.act id
  | .validateBody hooks data declaration options => do
    let _ ← DataContract.validateBody (hooks.getD defaultRegistry) data declaration options

/-- The events of an operation in a store. New plugins are told about their registration too;
to validate for a body with a given validator, only that is used, and no registry that is
named. -/
def Segment (st : Store) : Operation → List Occasion → Prop
  | .extend registry plugins, os =>
    let added := ((st.head plugins).items?).getD [plugins]
    ∃ o, os = [o] ∧ o.Tells registry .pluginsInitialized (.list added) ∧
      (registry < st.registries.length →
        o.before.listeners registry = st.listeners registry ++ added)
  | .compile hooks declaration strict, os =>
    Compiling (hooks.getD defaultRegistry) declaration strict
      ((compileIn (hooks.getD defaultRegistry) declaration strict).runIn st).1 os
  | .construct hooks declaration strict, os =>
    ∃ ended, Compiling (hooks.getD defaultRegistry) declaration strict ended os ∧
      ∃ id, ((newValidator (hooks.getD defaultRegistry) declaration strict).runIn st).1 =
        ended.map fun _ => id
  | .call id c, os =>
    match st.validators[id]? with
    | some v => c.Segment st id v os
    | none => os = []
  | .validateBody _ data (.validator id _) _, os =>
    match st.validators[id]? with
    | some v => Helping v data os
    | none => os = []
  | .validateBody hooks data declaration _, os =>
    ∃ ended first, Compiling (hooks.getD defaultRegistry) declaration true ended first ∧
      match ended with
      | .ok (schemaId, s) =>
        ∃ more, os = first ++ more ∧
          Helping ⟨schemaId, s, hooks.getD defaultRegistry, none⟩ data more
      | .error _ => os = first

/-- The store after some operations, whether they fail or not. -/
def after : List Operation → Store → Store
  | [], st => st
  | op :: rest, st => after rest (op.act.runIn st).2

/-- The segments of some operations that are done in order. -/
inductive Segments : Store → List Operation → List (List Occasion) → Prop where
  | nil {st : Store} : Segments st [] []
  | cons {st : Store} {op : Operation} {rest : List Operation} {os : List Occasion}
      {later : List (List Occasion)} (first : op.Segment st os)
      (others : Segments (op.act.runIn st).2 rest later) : Segments st (op :: rest) (os :: later)

end Operation

/-! ## Passing on data -/

namespace Action

variable {α β : Type} {act : Action α} {next : α → Action β}

/-- Where an action gives something, it has some property. -/
def Gives (act : Action α) (good : α → Prop) : Prop := ∀ st a, (act.runIn st).1 = .ok a → good a

omit [UserCode] in
theorem gives_pure {good : α → Prop} {a : α} (own : good a) : (pure a : Action α).Gives good :=
  fun _ _ same => Except.ok.inj same ▸ own

omit [UserCode] in
theorem Gives.bind {between : α → Prop} {good : β → Prop} (first : act.Gives between)
    (later : ∀ a, between a → (next a).Gives good) : (act >>= next).Gives good := by
  intro st b given
  have begun := first st
  rw [runIn_bind] at given
  rcases ran : act.runIn st with ⟨_ | a, u⟩ <;> rw [ran] at begun given
  · cases given
  · exact later a (begun a rfl) u b given

omit [UserCode] in
theorem gives_any : act.Gives fun _ => True := fun _ _ _ => trivial

end Action

theorem callWith_passedOn (f : Callable) (payload : Value) :
    (callWith f payload).Gives payload.PassedOn := by
  intro st left given inHand
  rw [callWith_runIn] at given
  cases f with
  | token t =>
      rw [Callable.call] at given
      dsimp only at given
      split at given <;> cases given
      rename_i own
      exact (Prod.mk.inj own).2.symm
  | function id name =>
      rw [Callable.call] at given
      dsimp only at given
      split at given <;> cases given
      rename_i own
      rw [← (Prod.mk.inj own).2, Value.leftAs, inHand]
      rfl

theorem tell_passedOn (event : HookEvent) (payload listener : Value) :
    (tell event payload listener).Gives payload.PassedOn := by
  have same : payload.PassedOn payload := fun _ => rfl
  cases listener with
  | plugin id label =>
      refine Action.gives_any.bind fun st _ => ?_
      split
      next f _ => exact callWith_passedOn f payload
      · exact Action.gives_pure same
  | _ => exact Action.gives_pure same

theorem tellFrom_passedOn (registry : Nat) (event : HookEvent) (room position : Nat)
    (payload : Value) :
    (tellFrom registry event room position payload).Gives payload.PassedOn := by
  induction room generalizing position payload with
  | zero => exact Action.gives_pure fun _ => rfl
  | succ room ih =>
      rw [tellFrom]
      refine Action.gives_any.bind fun listeners _ => ?_
      split
      · exact Action.gives_pure fun _ => rfl
      next listener _ =>
        refine (tell_passedOn event payload listener).bind fun left passed u last given => ?_
        exact passed.trans (ih (position + 1) left u last given)

theorem Occasion.passedOn {o : Occasion} {left : Value} (passed : o.outcome = .ok left) :
    o.payload.PassedOn left := by
  obtain ⟨room, -, begun⟩ := trigger_runIn o.registry o.event o.payload o.before
  rw [outcome, begun] at passed
  exact tellFrom_passedOn o.registry o.event room 0 o.payload _ left passed

/-- A run leaves what is no list or mapping in hand as it is. -/
theorem Schema.validate_passedOn {s : Schema} {v : Value} {st : Store} {report : Report}
    (reports : (s.validate v st).result = .ok report) : v.PassedOn report.data := by
  intro inHand
  have left : (s.walk v st).left = v := by
    rw [walk_eq, Walk.ofEntries]
    split
    next home entries found =>
      obtain ⟨rfl, -, -⟩ := Value.home?_spec found
      cases home with
      | object | frozen => cases inHand
      | _ => rfl
    · rfl
  rw [validate, Visit.map, left] at reports
  obtain ⟨found, -, rfl⟩ := Declaration.map_eq_ok.mp reports
  rfl

/-! ## One operation -/

/-- A result is given after an event, unless a plugin fails. -/
theorem Told.event_then {α : Type} {st u : Store} {os : List Occasion} (told : Told st os u)
    (registry : Nat) (event : HookEvent) (payload : Value) (result : Value → α) :
    let after : Occasion := ⟨registry, event, payload, u⟩
    let rest : Action α := do
      let left ← trigger registry event payload
      return result left
    Told st (os ++ [after]) (rest.runIn u).2 ∧
      ((∃ f, after.outcome = .error (.fault f) ∧ (rest.runIn u).1 = .error (.fault f)) ∨
        ∃ left, after.outcome = .ok left ∧ (rest.runIn u).1 = .ok (result left)) := by
  intro after rest
  rcases ran : (trigger registry event payload).runIn u with ⟨e | left, last⟩
  · obtain ⟨f, rfl⟩ := trigger_onlyFaults _ _ _ u e (congrArg Prod.fst ran)
    have failed : rest.runIn u = (.error (.fault f), last) := Action.runIn_bind_of_error ran _
    rw [failed]
    exact ⟨told.occasion ran, .inl ⟨f, congrArg Prod.fst ran, rfl⟩⟩
  · have given : rest.runIn u = (.ok (result left), last) := Action.runIn_bind_of_ok ran _
    rw [given]
    exact ⟨told.occasion ran, .inr ⟨left, congrArg Prod.fst ran, rfl⟩⟩

theorem compileIn_told (registry : Nat) (declaration : Value) (strict : Bool) (st : Store) :
    ∃ os, Told st os ((compileIn registry declaration strict).runIn st).2 ∧
      Compiling registry declaration strict
        ((compileIn registry declaration strict).runIn st).1 os := by
  let before : Occasion := ⟨registry, .beforeParse, declaration, st⟩
  have tells : before.Tells registry .beforeParse declaration := ⟨rfl, rfl, rfl⟩
  rcases ran : (trigger registry .beforeParse declaration).runIn st with ⟨e | given, between⟩
  · have failed : before.outcome = .error e := congrArg Prod.fst ran
    obtain ⟨f, rfl⟩ := before.fault_of_outcome failed
    rw [compileIn, Action.runIn_bind_of_error ran]
    exact ⟨_, Told.start.occasion ran, .aborted tells failed⟩
  · have passed : before.outcome = .ok given := congrArg Prod.fst ran
    have reached : before.after = between := congrArg Prod.snd ran
    have written := Action.runIn_writtenOut given between
    have known := Action.runIn_ofDeclaration
      (Declaration.compile (between.plain given) strict) between
    rw [compileIn, Action.runIn_bind_of_ok ran, Action.runIn_bind_of_ok written]
    cases outcome : Declaration.compile (between.plain given) strict with
    | error e =>
        rw [outcome] at known
        rw [Action.runIn_bind_of_error known]
        refine ⟨_, Told.start.occasion ran, .refused tells passed ?_⟩
        rw [reached]
        exact outcome
    | ok s =>
        have compiles : Declaration.compile (before.after.plain given) strict = .ok s := by
          rw [reached]
          exact outcome
        rw [outcome] at known
        obtain ⟨id, identities, identified⟩ := identify_runIn given between
        -- Between its two events a compilation at most gives out an identity.
        have silent : Told st [before] { between with identities } :=
          (Told.start.occasion ran).silent (.of_same rfl rfl)
        rw [Action.runIn_bind_of_ok known, Action.runIn_bind_of_ok identified]
        obtain ⟨after, ⟨f, failed, ended⟩ | ⟨left, given, ended⟩⟩ :=
          silent.event_then registry .afterParse (.schema id s) fun _ => (id, s)
        · exact ⟨_, after, ended ▸ .abortedAfter tells passed compiles ⟨rfl, rfl, rfl⟩ failed⟩
        · exact ⟨_, after, ended ▸ .compiled tells passed compiles ⟨rfl, rfl, rfl⟩ given⟩

section Aside

variable (aside : ∀ f : Callable, f.Preserves (Store.Beneath 1))

include aside

theorem trigger_beneath (registry : Nat) (event : HookEvent) (payload : Value) :
    (trigger registry event payload).Keeps (Store.Beneath 0) :=
  trigger_keeps (Store.upkeep_beneath 0) (fun f => (aside f).weaken) Store.beneath_noting registry
    event payload

theorem evaluate_beneath (id : Nat) (data : Value) :
    (evaluate id data).Keeps (Store.Beneath 0) :=
  evaluate_keeps (Store.upkeep_beneath 0) (fun f => (aside f).weaken) Store.beneath_noting id data

section Held

variable {st : Store} {id : Nat} {v : Validator} (held : st.HasValidator id v)

include held

theorem evaluate_told (data : Value) :
    ∃ os, Told st os ((evaluate id data).runIn st).2 ∧
      Reporting v data ((evaluate id data).runIn st).1 os := by
  let before : Occasion := ⟨v.registry, .beforeValidate, data, st⟩
  have tells : before.Tells v.registry .beforeValidate data := ⟨rfl, rfl, rfl⟩
  have aside' := before.after_beneath aside
  obtain ⟨_, own⟩ := held
  rw [evaluate, Action.runIn_bind_of_ok (validatorAt_runIn own)]
  rcases ran : (trigger v.registry .beforeValidate data).runIn st with ⟨e | given, between⟩
  · have failed : before.outcome = .error e := congrArg Prod.fst ran
    obtain ⟨f, rfl⟩ := before.fault_of_outcome failed
    rw [Action.runIn_bind_of_error ran]
    exact ⟨_, Told.start.occasion ran, .aborted tells failed⟩
  · have passed : before.outcome = .ok given := congrArg Prod.fst ran
    have reached : before.after = between := congrArg Prod.snd ran
    rw [reached] at aside'
    -- Functions leave the validator what it is, so each step finds the same schema and registry.
    obtain ⟨_, ownBetween⟩ := aside'.validators id v ⟨_, own⟩
    have visited := Action.runIn_ofVisit (v.schema.validate given) between
    have walked : between.Beneath 1 (v.schema.validate given between).store :=
      v.schema.walk_keeps (Store.upkeep_beneath 1) (fun f => (aside f).toKeeps) given between
    have silent := (Told.start.occasion ran).silent walked.toTellsBelow
    rw [Action.runIn_bind_of_ok ran, Action.runIn_bind_of_ok (validatorAt_runIn ownBetween)]
    cases outcome : (v.schema.validate given between).result with
    | error f =>
        rw [outcome] at visited
        rw [Action.runIn_bind_of_error visited]
        refine ⟨_, silent, .stopped tells passed ?_⟩
        rw [reached]
        exact outcome
    | ok report =>
        have reports : (v.schema.validate given before.after).result = .ok report := by
          rw [reached]
          exact outcome
        have same : data.PassedOn report.data :=
          (before.passedOn passed).trans (Schema.validate_passedOn outcome)
        obtain ⟨_, ownLater⟩ := walked.validators id v ⟨_, ownBetween⟩
        rw [outcome] at visited
        rw [Action.runIn_bind_of_ok visited]
        dsimp only
        rw [Action.runIn_bind_of_ok (validatorAt_runIn ownLater)]
        obtain ⟨after, ⟨f, failed, ended⟩ | ⟨left, given, ended⟩⟩ :=
          silent.event_then v.registry .afterValidate report.data fun data => { report with data }
        · exact ⟨_, after, ended ▸ .abortedAfter tells passed reports same ⟨rfl, rfl, rfl⟩ failed⟩
        · exact ⟨_, after, ended ▸ .reported tells passed reports same ⟨rfl, rfl, rfl⟩ given⟩

/-- Remembering a report is silent, so validating tells what evaluating does. -/
theorem validate_told (data : Value) :
    ∃ os ended, Told st os ((validate id data).runIn st).2 ∧ Reporting v data ended os ∧
      ((validate id data).runIn st).1 = ended.map Report.valid ∧
      ∀ report, ended = .ok report →
        ((validate id data).runIn st).2.validators[id]? = some { v with last := some report } := by
  obtain ⟨os, told, reporting⟩ := evaluate_told aside held data
  have kept := (evaluate_beneath aside id data st).validators id v held
  refine ⟨os, _, ?_, reporting, ?_⟩ <;> rw [validate_runIn_evaluate]
  all_goals
    generalize (evaluate id data).runIn st = ran at told reporting kept ⊢
    obtain ⟨f | report, left⟩ := ran
  · exact told
  · exact told.silent (.of_same rfl rfl)
  · exact ⟨rfl, nofun⟩
  · refine ⟨rfl, fun _ own => ?_⟩
    cases own
    exact kept.remembering report

/-- What is done with a validator to get a body: it validates, and gives the body or reads the
messages. -/
theorem requireBody_told (data : Value) (options : BodyOptions) :
    ∃ os, Told st os ((requireBody id data options).runIn st).2 ∧ Helping v data os := by
  obtain ⟨os, ended, told, reporting, outcome, remembered⟩ := validate_told aside held data
  rw [requireBody]
  rcases ran : (validate id data).runIn st with ⟨f | valid, between⟩ <;>
    rw [ran] at told outcome remembered
  · cases ended with
    | ok report => cases outcome
    | error f =>
        rw [Action.runIn_bind_of_error ran]
        exact ⟨os, told, .failed reporting⟩
  · cases ended with
    | error f => cases outcome
    | ok report =>
        have valid_eq : valid = report.valid := Except.ok.inj outcome
        have own := remembered report rfl
        rw [Action.runIn_bind_of_ok ran]
        cases valid with
        | true =>
            refine ⟨os, ?_, .accepted reporting valid_eq.symm⟩
            rw [if_pos rfl, after_readBody own]
            exact told
        | false =>
            have read := readMessages_runIn own
            let o : Occasion := ⟨v.registry, .getValidationErrors, .null, between⟩
            have tells : o.Tells v.registry .getValidationErrors .null := ⟨rfl, rfl, rfl⟩
            have joined (messages : List Value) : (do
                let messages ← Action.ofFault (messageTexts messages)
                Action.fail (.invalid messages) : Action Entries).Keeps
                  fun st left => left = st := by
              intro u
              cases messageTexts messages <;> rfl
            refine ⟨os ++ [o], ?_, .refused reporting valid_eq.symm tells⟩
            rw [if_neg Bool.false_ne_true, Action.after_bind joined, read]
            exact told.event v.registry .getValidationErrors .null

end Held

/-- A call of a validator tells the events of its segment. -/
theorem Call.told {st : Store} {id : Nat} {v : Validator} (held : st.validators[id]? = some v)
    (c : Call) : ∃ os, Told st os ((c.act id).runIn st).2 ∧ c.Segment st id v os := by
  cases c with
  | validate data =>
      obtain ⟨os, ended, told, reporting, same, -⟩ := validate_told aside (.of_some held) data
      rw [act, Action.after_bind fun _ => Action.still_pure _]
      exact ⟨os, told, ended, reporting, same⟩
  | evaluate data =>
      rw [act, Action.after_bind fun _ => Action.still_pure _]
      exact evaluate_told aside (.of_some held) data
  | messages =>
      rw [act, Action.after_bind fun _ => Action.still_pure _, readMessages_runIn held]
      simp only [Segment, Validator.Asked]
      cases v.last with
      | none => exact ⟨[], .start, rfl⟩
      | some report => exact ⟨_, Told.start.event _ _ _, _, rfl, rfl, rfl, rfl⟩
  | violations =>
      rw [act, Action.after_bind fun _ => Action.still_pure _, readViolations_runIn held]
      simp only [Segment, Validator.Asked]
      cases v.last with
      | none => exact ⟨[], .start, rfl⟩
      | some report => exact ⟨_, Told.start.event _ _ _, _, rfl, rfl, rfl, rfl⟩
  | body options =>
      rw [act, Action.after_bind fun _ => Action.still_pure _, after_readBody held]
      exact ⟨[], .start, rfl⟩

end Aside

section Unknown

variable {st : Store} {id : Nat} (unknown : st.validators[id]? = none)

include unknown

omit [UserCode] in
theorem validatorAt_runIn_of_unknown :
    (validatorAt id).runIn st = (.error (.unknownName ""), st) := by
  rw [validatorAt, Action.runIn_bind_of_ok (Action.runIn_get st), unknown, Action.runIn_fail]

theorem evaluate_runIn_of_unknown (data : Value) :
    (evaluate id data).runIn st = (.error (.unknownName ""), st) := by
  rw [evaluate, Action.runIn_bind_of_error (validatorAt_runIn_of_unknown unknown)]

omit [UserCode] in
theorem requireReport_runIn_of_unknown (reading : Reading) :
    (requireReport id reading).runIn st = (.error (.unknownName ""), st) := by
  rw [requireReport, Action.runIn_bind_of_error (validatorAt_runIn_of_unknown unknown)]

theorem validate_runIn_of_unknown (data : Value) :
    (validate id data).runIn st = (.error (.unknownName ""), st) :=
  Action.runIn_bind_of_error (evaluate_runIn_of_unknown unknown data) _

/-- Without a validator nothing happens. -/
theorem Call.after_act_of_unknown (c : Call) : ((c.act id).runIn st).2 = st := by
  have required := requireReport_runIn_of_unknown unknown
  cases c <;> rw [act, Action.after_bind fun _ => Action.still_pure _]
  case validate data => rw [validate_runIn_of_unknown unknown]
  case evaluate data => rw [evaluate_runIn_of_unknown unknown]
  case messages => rw [readMessages, Action.runIn_bind_of_error (required _)]
  case violations => rw [readViolations, Action.runIn_bind_of_error (required _)]
  case body options => rw [readBody, Action.runIn_bind_of_error (required _)]

end Unknown

theorem extendRegistry_told (registry : Nat) (plugins : Value) (st : Store) :
    ∃ os, Told st os ((extendRegistry registry plugins).runIn st).2 ∧
      (Operation.extend registry plugins).Segment st os := by
  let added := ((st.head plugins).items?).getD [plugins]
  let u : Store :=
    { st with registries := st.registries.set registry (st.listeners registry ++ added) }
  have registers :
      (setRegistered registry (st.listeners registry ++ added)).runIn st = (.ok (), u) :=
    rfl
  let o : Occasion := ⟨registry, .pluginsInitialized, .list added, u⟩
  refine ⟨[o], ?_, o, rfl, ⟨rfl, rfl, rfl⟩, fun there => ?_⟩
  · rw [extendRegistry, Action.runIn_bind_of_ok (Action.runIn_head plugins st),
      Action.runIn_bind_of_ok (registered_runIn registry st), Action.runIn_bind_of_ok registers,
      Action.after_bind fun _ => Action.still_pure _]
    have silent : Told st [] u := Told.start.silent (.of_same rfl rfl)
    exact silent.event registry .pluginsInitialized (.list added)
  · simp [o, u, Store.listeners, there, added]

theorem newValidator_told (registry : Nat) (declaration : Value) (strict : Bool) (st : Store) :
    ∃ os ended id, Told st os ((newValidator registry declaration strict).runIn st).2 ∧
      Compiling registry declaration strict ended os ∧
      ((newValidator registry declaration strict).runIn st).1 = ended.map (fun _ => id) ∧
      ∀ schemaId s, ended = .ok (schemaId, s) →
        ((newValidator registry declaration strict).runIn st).2.validators[id]? =
          some ⟨schemaId, s, registry, none⟩ := by
  obtain ⟨os, told, compiling⟩ := compileIn_told registry declaration strict st
  rcases ran : (compileIn registry declaration strict).runIn st with ⟨f | ⟨schemaId, s⟩, left⟩ <;>
    rw [ran] at told compiling
  · rw [newValidator, Action.runIn_bind_of_error ran]
    exact ⟨os, _, 0, told, compiling, rfl, nofun⟩
  · have made : (newValidator registry declaration strict).runIn st =
        (.ok left.validators.length,
          { left with validators := left.validators ++ [⟨schemaId, s, registry, none⟩] }) :=
      Action.runIn_bind_of_ok ran _
    rw [made]
    refine ⟨os, _, left.validators.length, told.silent (.of_same rfl rfl), compiling, rfl, ?_⟩
    rintro _ _ same
    cases same
    exact List.getElem?_concat_length

section Aside

variable (aside : ∀ f : Callable, f.Preserves (Store.Beneath 1))

include aside

theorem validateBody_told (hooks : Option Nat) (data declaration : Value) (options : BodyOptions)
    (st : Store) :
    ∃ os, Told st os
        ((validateBody (hooks.getD defaultRegistry) data declaration options).runIn st).2 ∧
      (Operation.validateBody hooks data declaration options).Segment st os := by
  let registry := hooks.getD defaultRegistry
  have compiled : ∃ os, Told st os ((do
        requireBody (← newValidator registry declaration true) data options :
          Action Entries).runIn st).2 ∧
      ∃ ended first, Compiling registry declaration true ended first ∧
        match ended with
        | .ok (schemaId, s) =>
          ∃ more, os = first ++ more ∧ Helping ⟨schemaId, s, registry, none⟩ data more
        | .error _ => os = first := by
    obtain ⟨first, ended, id, told, compiling, outcome, held⟩ :=
      newValidator_told registry declaration true st
    rcases ran : (newValidator registry declaration true).runIn st with ⟨f | made, between⟩ <;>
      rw [ran] at told outcome held
    · cases ended with
      | ok made => cases outcome
      | error e =>
          rw [Action.runIn_bind_of_error ran]
          exact ⟨first, told, _, first, compiling, rfl⟩
    · cases ended with
      | error e => cases outcome
      | ok compiled =>
          cases outcome
          obtain ⟨more, later, helping⟩ :=
            requireBody_told aside (.of_some (held compiled.1 compiled.2 rfl)) data options
          rw [Action.runIn_bind_of_ok ran]
          exact ⟨first ++ more, told.trans later, _, first, compiling, more, rfl, helping⟩
  cases declaration with
  | validator id s =>
      have chosen : (validatorOf registry (.validator id s)).runIn st = (.ok id, st) := rfl
      simp only [Operation.Segment]
      rw [validateBody, Action.runIn_bind_of_ok chosen]
      cases held : st.validators[id]? with
      | some v => exact requireBody_told aside (.of_some held) data options
      | none =>
          rw [requireBody, Action.runIn_bind_of_error (validate_runIn_of_unknown held data)]
          exact ⟨[], .start, rfl⟩
  | _ => exact compiled

/-- An operation tells exactly the events of its segment. -/
theorem Operation.told (op : Operation) (st : Store) :
    ∃ os, Told st os (op.act.runIn st).2 ∧ op.Segment st os := by
  cases op with
  | extend registry plugins => exact extendRegistry_told registry plugins st
  | compile hooks declaration strict =>
      rw [act, Action.after_bind fun _ => Action.still_pure _]
      exact compileIn_told _ declaration strict st
  | construct hooks declaration strict =>
      obtain ⟨os, ended, id, told, compiling, outcome, -⟩ :=
        newValidator_told (hooks.getD defaultRegistry) declaration strict st
      rw [act, Action.after_bind fun _ => Action.still_pure _]
      exact ⟨os, told, ended, compiling, id, outcome⟩
  | call id c =>
      simp only [Segment]
      rw [act, Action.after_bind fun _ => Action.still_pure _]
      cases held : st.validators[id]? with
      | some v => exact Call.told aside held c
      | none =>
          rw [Call.after_act_of_unknown held]
          exact ⟨[], .start, rfl⟩
  | validateBody hooks data declaration options =>
      rw [act, Action.after_bind fun _ => Action.still_pure _]
      exact validateBody_told aside hooks data declaration options st

end Aside

end

end DataContract
