/-
# Running actions

What an action does to a store is computed step by step: running a sequence is running its
first action and going on where that has left the store. A registry is quiet if calling the
attributes of its plugins changes nothing that shows in some view of the store, and then
telling it about an event changes nothing that shows either.
-/

import DataContract.Lifecycle.Validator
import Mathlib.Data.Setoid.Basic

set_option autoImplicit false

namespace DataContract

namespace Action

variable {α β : Type}

/-- What an action gives in a store, or why it fails, and the store that it leaves. -/
def runIn (act : Action α) (st : Store) : Except Failure α × Store := act.run.run st

@[simp] theorem runIn_pure (a : α) (st : Store) : (pure a : Action α).runIn st = (.ok a, st) := rfl

theorem runIn_bind (act : Action α) (next : α → Action β) (st : Store) :
    (act >>= next).runIn st =
      match act.runIn st with
      | (.ok a, left) => (next a).runIn left
      | (.error f, left) => (.error f, left) := by
  rw [runIn, runIn, ExceptT.run_bind, StateT.run_bind]
  rcases (act.run.run st : Except Failure α × Store) with ⟨_ | a, left⟩ <;> rfl

theorem runIn_bind_of_ok {act : Action α} {st left : Store} {a : α}
    (first : act.runIn st = (.ok a, left)) (next : α → Action β) :
    (act >>= next).runIn st = (next a).runIn left := by
  rw [runIn_bind, first]

theorem runIn_bind_of_error {act : Action α} {st left : Store} {f : Failure}
    (first : act.runIn st = (.error f, left)) (next : α → Action β) :
    (act >>= next).runIn st = (.error f, left) := by
  rw [runIn_bind, first]

/-- A sequence that ends in success has begun in success. -/
theorem runIn_bind_eq_ok_iff {act : Action α} {next : α → Action β} {st left : Store} {b : β} :
    (act >>= next).runIn st = (.ok b, left) ↔
      ∃ a between, act.runIn st = (.ok a, between) ∧ (next a).runIn between = (.ok b, left) := by
  rw [runIn_bind]
  rcases act.runIn st with ⟨_ | a, between⟩
  · simp
  · constructor
    · exact fun later => ⟨a, between, rfl, later⟩
    · rintro ⟨_, _, first, later⟩
      cases first
      exact later

@[simp] theorem runIn_fail (f : Failure) (st : Store) :
    (fail f : Action α).runIn st = (.error f, st) := rfl

@[simp] theorem runIn_get (st : Store) : (get : Action Store).runIn st = (.ok st, st) := rfl

@[simp] theorem runIn_set (left st : Store) : (set left : Action Unit).runIn st = (.ok (), left) :=
  rfl

@[simp] theorem runIn_modify (f : Store → Store) (st : Store) :
    (modify f : Action Unit).runIn st = (.ok (), f st) := rfl

@[simp] theorem runIn_ofDeclaration (known : Except SchemaError α) (st : Store) :
    (ofDeclaration known).runIn st = (known.mapError Failure.declaration, st) := by
  cases known <;> rfl

@[simp] theorem runIn_head (v : Value) (st : Store) : (head v).runIn st = (.ok (st.head v), st) :=
  rfl

@[simp] theorem runIn_writtenOut (v : Value) (st : Store) :
    (writtenOut v).runIn st = (.ok (st.plain v), st) := rfl

/-- A visit leaves its store, also where it fails. -/
theorem runIn_ofVisit {σ : Type} (visit : Store → Visit σ α) (st : Store) :
    (ofVisit visit).runIn st =
      (((visit st).result.map fun a => (a, (visit st).left)).mapError Failure.fault,
        (visit st).store) := by
  simp only [ofVisit, runIn_bind, runIn_get, runIn_set]
  cases (visit st).result <;> rfl

end Action

namespace Store

/-- The values that are registered in a registry. -/
def listeners (st : Store) (registry : Nat) : List Value := (st.registries[registry]?).getD []

/-- The store has a validator with a number, whatever that remembers. -/
def HasValidator (st : Store) (id : Nat) (v : Validator) : Prop :=
  ∃ last, st.validators[id]? = some { v with last }

/-- A store that has taken note of a telling. -/
def noting (st : Store) (t : Telling) : Store := { st with told := st.told ++ [t] }

/-- A store in which a validator remembers a report. -/
def remembering (st : Store) (id : Nat) (report : Report) : Store :=
  { st with validators := st.validators.modify id fun v => { v with last := some report } }

theorem HasValidator.of_some {st : Store} {id : Nat} {v : Validator}
    (held : st.validators[id]? = some v) : st.HasValidator id v := ⟨v.last, held⟩

theorem HasValidator.remembering {st : Store} {id : Nat} {v : Validator}
    (held : st.HasValidator id v) (report : Report) :
    (st.remembering id report).validators[id]? = some { v with last := some report } := by
  obtain ⟨last, held⟩ := held
  simp [Store.remembering, held]

variable {st st' : Store} (cells : st'.cells = st.cells)

include cells

theorem head_congr (v : Value) : st'.head v = st.head v := by
  cases v <;> simp only [head, get?, cells]

/-- What a value is when it is written out depends on the cells alone. -/
theorem plain_congr (v : Value) : st'.plain v = st.plain v := by
  have written (bound : Nat) (v : Value) : st'.writeOut bound v = st.writeOut bound v := by
    induction bound generalizing v with
    | zero => rfl
    | succ bound ih => simp only [writeOut, get?, cells, ih]
  rw [plain, plain, cells, written]

end Store

theorem registered_runIn (registry : Nat) (st : Store) :
    (registered registry).runIn st = (.ok (st.listeners registry), st) := rfl

theorem validatorAt_runIn {st : Store} {id : Nat} {v : Validator}
    (held : st.validators[id]? = some v) : (validatorAt id).runIn st = (.ok v, st) := by
  rw [validatorAt, Action.runIn_bind_of_ok (Action.runIn_get st), held, Action.runIn_pure]

/-- Finding an identity at most counts one more. -/
theorem identify_runIn (declaration : Value) (st : Store) :
    ∃ id identities, (identify declaration).runIn st = (.ok id, { st with identities }) := by
  obtain ⟨known, found⟩ : ∃ known, (compiledId? declaration).runIn st = (.ok known, st) := by
    cases declaration <;> exact ⟨_, rfl⟩
  rw [identify, Action.runIn_bind_of_ok found]
  cases known with
  | some id => exact ⟨id, st.identities, rfl⟩
  | none => exact ⟨st.identities, st.identities + 1, rfl⟩

section Held

variable {st : Store} {id : Nat} {v : Validator} (held : st.validators[id]? = some v)

include held

/-- Asking for the last report is looking it up. -/
theorem requireReport_runIn (reading : Reading) :
    (requireReport id reading).runIn st =
      match v.last with
      | some report => (.ok report, st)
      | none => (.error (.usage (.notValidated reading)), st) := by
  rw [requireReport, Action.runIn_bind_of_ok (validatorAt_runIn held)]
  cases v.last <;> rfl

/-- The body that is read is that of the last report. -/
theorem readBody_runIn {report : Report} (last : v.last = some report) (options : BodyOptions) :
    (readBody id options).runIn st =
      match (st.head report.data).entries? with
      | some entries => (.ok (v.schema.project options entries), st)
      | none => (.error (.usage .notARecord), st) := by
  have required := requireReport_runIn held .body
  rw [last] at required
  rw [readBody, Action.runIn_bind_of_ok required,
    Action.runIn_bind_of_ok (Action.runIn_head report.data st)]
  cases (st.head report.data).entries? with
  | none => rfl
  | some entries =>
      dsimp only
      rw [Action.runIn_bind_of_ok (validatorAt_runIn held), Action.runIn_pure]

/-- Without a report there is no body, and nothing happens. -/
theorem readBody_runIn_of_none (last : v.last = none) (options : BodyOptions) :
    (readBody id options).runIn st = (.error (.usage (.notValidated .body)), st) := by
  have required := requireReport_runIn held .body
  rw [last] at required
  exact Action.runIn_bind_of_error required _

/-- Reading the body changes nothing. -/
theorem after_readBody (options : BodyOptions) : ((readBody id options).runIn st).2 = st := by
  cases found : v.last with
  | none => rw [readBody_runIn_of_none held found]
  | some report =>
      rw [readBody_runIn held found]
      cases (st.head report.data).entries? <;> rfl

end Held

section

variable [UserCode]

/-- Calling something gives the payload as it is left, or fails with what the call raises. -/
theorem callWith_runIn (f : Callable) (payload : Value) (st : Store) :
    (callWith f payload).runIn st =
      match (f.call payload st).1 with
      | (.ok (), left) => (.ok left, (f.call payload st).2)
      | (.error fault, _) => (.error (.fault fault), (f.call payload st).2) := by
  rw [callWith, Action.runIn_bind_of_ok (Action.runIn_get st)]
  rcases f.call payload st with ⟨⟨_ | _, left⟩, after⟩ <;> rfl

/-- A registry is told where the store has taken note, and there is room for all that is
registered. -/
theorem trigger_runIn (registry : Nat) (event : HookEvent) (payload : Value) (st : Store) :
    ∃ room, (st.listeners registry).length ≤ room ∧
      (trigger registry event payload).runIn st =
        (tellFrom registry event room 0 payload).runIn
          (st.noting ⟨st.depth, registry, event, payload⟩) := by
  refine ⟨greatestLength + (st.listeners registry).length, Nat.le_add_left _ _, ?_⟩
  rw [trigger, Action.runIn_bind_of_ok (Action.runIn_modify _ st),
    Action.runIn_bind_of_ok (registered_runIn registry _)]
  rfl

/-! ## Quiet registries -/

/-- A view of stores that shows the cells, the plugins, the registries and what validators are,
and neither what registries were told nor how many identities were given out. -/
structure Store.Shown (view : Setoid Store) : Prop where
  cells : ∀ {st st'}, view st st' → st'.cells = st.cells
  plugins : ∀ {st st'}, view st st' → st'.plugins = st.plugins
  registries : ∀ {st st'}, view st st' → st'.registries = st.registries
  validators : ∀ {st st'}, view st st' → ∀ id v, st.HasValidator id v → st'.HasValidator id v
  told : ∀ (st : Store) told, view st { st with told }
  identities : ∀ (st : Store) identities, view st { st with identities }

/-- Something that gives back the payload it is called with and leaves a store that looks the
same. -/
def Callable.Quiet (view : Setoid Store) (f : Callable) : Prop :=
  ∀ payload st, (f.call payload st).1 = (.ok (), payload) ∧ view st (f.call payload st).2

/-- The attributes of a plugin that can be called are quiet. -/
def Plugin.Quiet (view : Setoid Store) (plugin : Plugin) : Prop :=
  ∀ e ∈ plugin.attributes, ∀ f, e.2 = .callable f → f.Quiet view

/-- The plugins of a registry are quiet. -/
def Store.Quiet (view : Setoid Store) (st : Store) (registry : Nat) : Prop :=
  ∀ id name, Value.plugin id name ∈ st.listeners registry →
    ∀ plugin, st.plugins[id]? = some plugin → plugin.Quiet view

/-- A registry in which there is nobody is quiet. -/
theorem Store.quiet_of_nobody {view : Setoid Store} {st : Store} {registry : Nat}
    (nobody : st.listeners registry = []) : st.Quiet view registry := by
  intro id name mem
  rw [nobody] at mem
  cases mem

theorem tell_runIn {view : Setoid Store} {st : Store} {listener : Value} (event : HookEvent)
    (payload : Value)
    (quiet : ∀ id name, listener = .plugin id name → ∀ plugin, st.plugins[id]? = some plugin →
      plugin.Quiet view) :
    ∃ left, view st left ∧ (tell event payload listener).runIn st = (.ok payload, left) := by
  have nothing : ∃ left, view st left ∧
      (pure payload : Action Value).runIn st = (.ok payload, left) := ⟨st, view.refl' st, rfl⟩
  cases listener with
  | plugin id name =>
      rw [tell, Action.runIn_bind_of_ok (Action.runIn_get st)]
      cases there : st.plugins[id]? with
      | none => exact nothing
      | some plugin =>
          rw [Option.bind_some]
          split
          next f found =>
            obtain ⟨before, after, own, -⟩ := List.lookup_eq_some_iff.mp found
            obtain ⟨gives, same⟩ := quiet id name rfl plugin there (event, .callable f)
              (by simp [own]) f rfl payload st
            refine ⟨_, same, ?_⟩
            rw [callWith_runIn, gives]
          · exact nothing
  | _ => exact nothing

section View

variable {view : Setoid Store} (shown : Store.Shown view)

include shown

theorem Store.Quiet.of_view {st st' : Store} {registry : Nat} (quiet : st.Quiet view registry)
    (same : view st st') : st'.Quiet view registry := by
  intro id name mem plugin there
  rw [listeners, shown.registries same] at mem
  rw [shown.plugins same] at there
  exact quiet id name mem plugin there

theorem tellFrom_quiet {registry : Nat} (event : HookEvent) (room position : Nat) (payload : Value)
    {st : Store} (quiet : st.Quiet view registry) :
    ∃ left, view st left ∧
      (tellFrom registry event room position payload).runIn st = (.ok payload, left) := by
  induction room generalizing position st with
  | zero => exact ⟨st, view.refl' st, rfl⟩
  | succ room ih =>
      rw [tellFrom, Action.runIn_bind_of_ok (registered_runIn registry st)]
      split
      · exact ⟨st, view.refl' st, rfl⟩
      next listener found =>
        have listed : listener ∈ st.listeners registry := List.mem_of_getElem? found
        obtain ⟨between, same, told⟩ := tell_runIn event payload
          fun id name own => quiet id name (own ▸ listed)
        obtain ⟨left, sameToo, others⟩ := ih (position + 1) (quiet.of_view shown same)
        refine ⟨left, view.trans' same sameToo, ?_⟩
        rw [Action.runIn_bind_of_ok told]
        exact others

/-- Telling a quiet registry about an event gives the payload back and changes nothing that
shows. -/
theorem trigger_quiet {st : Store} {registry : Nat} (quiet : st.Quiet view registry)
    (event : HookEvent) (payload : Value) :
    ∃ left, view st left ∧ (trigger registry event payload).runIn st = (.ok payload, left) := by
  obtain ⟨room, -, begun⟩ := trigger_runIn registry event payload st
  have noted : view st (st.noting ⟨st.depth, registry, event, payload⟩) := shown.told st _
  obtain ⟨left, same, told⟩ := tellFrom_quiet shown event room 0 payload (quiet.of_view shown noted)
  exact ⟨left, view.trans' noted same, begun.trans told⟩

/-! ## Making validators -/

/-- With a quiet registry, compiling depends on the declaration alone. -/
theorem compileIn_quiet {st : Store} {registry : Nat} (quiet : st.Quiet view registry)
    (declaration : Value) (strict : Bool) :
    ∃ schemaId left, view st left ∧ (compileIn registry declaration strict).runIn st =
      match Declaration.compile (st.plain declaration) strict with
      | .ok s => (.ok (schemaId, s), left)
      | .error e => (.error (.declaration e), left) := by
  obtain ⟨between, same, before⟩ := trigger_quiet shown quiet .beforeParse declaration
  have written := Action.runIn_writtenOut declaration between
  rw [Store.plain_congr (shown.cells same)] at written
  have compiled := Action.runIn_ofDeclaration
    (Declaration.compile (st.plain declaration) strict) between
  rw [compileIn, Action.runIn_bind_of_ok before, Action.runIn_bind_of_ok written]
  cases outcome : Declaration.compile (st.plain declaration) strict with
  | error e =>
      rw [outcome] at compiled
      exact ⟨0, between, same, Action.runIn_bind_of_error compiled _⟩
  | ok s =>
      rw [outcome] at compiled
      obtain ⟨schemaId, identities, identified⟩ := identify_runIn declaration between
      have still := view.trans' same (shown.identities between identities)
      obtain ⟨left, sameToo, after⟩ :=
        trigger_quiet shown (quiet.of_view shown still) .afterParse (.schema schemaId s)
      refine ⟨schemaId, left, view.trans' still sameToo, ?_⟩
      rw [Action.runIn_bind_of_ok compiled, Action.runIn_bind_of_ok identified,
        Action.runIn_bind_of_ok after, Action.runIn_pure]

/-- With a quiet registry, a validator is made of what compiles, and of nothing else. -/
theorem newValidator_quiet {st : Store} {registry : Nat} (quiet : st.Quiet view registry)
    (declaration : Value) (strict : Bool) :
    ∃ schemaId left, view st left ∧ (newValidator registry declaration strict).runIn st =
      match Declaration.compile (st.plain declaration) strict with
      | .ok s => (.ok left.validators.length,
          { left with validators := left.validators ++ [⟨schemaId, s, registry, none⟩] })
      | .error e => (.error (.declaration e), left) := by
  obtain ⟨schemaId, left, same, compiled⟩ := compileIn_quiet shown quiet declaration strict
  refine ⟨schemaId, left, same, ?_⟩
  cases outcome : Declaration.compile (st.plain declaration) strict with
  | error e =>
      rw [outcome] at compiled
      exact Action.runIn_bind_of_error compiled _
  | ok s =>
      rw [outcome] at compiled
      exact Action.runIn_bind_of_ok compiled _

end View

/-! ## Validators -/

/-- Validating is evaluating, and remembering the report if there is one. -/
theorem validate_runIn_evaluate (id : Nat) (data : Value) (st : Store) :
    (validate id data).runIn st =
      match (evaluate id data).runIn st with
      | (.ok report, left) => (.ok report.valid, left.remembering id report)
      | (.error f, left) => (.error f, left) := by
  rcases ran : (evaluate id data).runIn st with ⟨f | report, left⟩
  · exact Action.runIn_bind_of_error ran _
  · exact Action.runIn_bind_of_ok ran _

section Held

variable {st : Store} {id : Nat} {v : Validator} (held : st.validators[id]? = some v)

include held

/-- Reading something of the last report is telling the plugins and giving that, if there is a
report. -/
theorem read_runIn {α : Type} (reading : Reading) (event : HookEvent) (part : Report → α) :
    (do
      let report ← requireReport id reading
      let _ ← trigger (← validatorAt id).registry event .null
      return part report : Action α).runIn st =
      match v.last with
      | some report =>
        let told := (trigger v.registry event .null).runIn st
        (told.1.map fun _ => part report, told.2)
      | none => (.error (.usage (.notValidated reading)), st) := by
  have required := requireReport_runIn held reading
  cases found : v.last with
  | none =>
      rw [found] at required
      rw [Action.runIn_bind_of_error required]
  | some report =>
      rw [found] at required
      rw [Action.runIn_bind_of_ok required, Action.runIn_bind_of_ok (validatorAt_runIn held),
        Action.runIn_bind]
      generalize (trigger v.registry event .null).runIn st = told
      obtain ⟨_ | _, left⟩ := told <;> rfl

theorem readMessages_runIn :
    (readMessages id).runIn st =
      match v.last with
      | some report =>
        let told := (trigger v.registry .getValidationErrors .null).runIn st
        (told.1.map fun _ => report.messages, told.2)
      | none => (.error (.usage (.notValidated .messages)), st) :=
  read_runIn held .messages .getValidationErrors Report.messages

theorem readViolations_runIn :
    (readViolations id).runIn st =
      match v.last with
      | some report =>
        let told := (trigger v.registry .getGroupedValidationErrors .null).runIn st
        (told.1.map fun _ => report.violations, told.2)
      | none => (.error (.usage (.notValidated .grouped)), st) :=
  read_runIn held .grouped .getGroupedValidationErrors Report.violations

end Held

/-- What validating for a body comes to after the run: the body of data in which nothing was
found, or a failure with the messages. -/
def Schema.answer (s : Schema) (options : BodyOptions) (st : Store) (report : Report) :
    Except Failure Entries :=
  if report.valid then
    match (st.head report.data).entries? with
    | some entries => .ok (s.project options entries)
    | none => .error (.usage .notARecord)
  else
    match messageTexts report.messages with
    | .ok texts => .error (.invalid texts)
    | .error f => .error (.fault f)

section Quiet

variable {view : Setoid Store} (shown : Store.Shown view) {st : Store} {id : Nat} {v : Validator}
  (held : st.HasValidator id v) (quiet : st.Quiet view v.registry) (data : Value)
  (still : ∀ between, view st between →
    (v.schema.validate data between).store.HasValidator id v ∧
      (v.schema.validate data between).store.Quiet view v.registry)

include shown held quiet still

/-- With a registry that is quiet and stays so, reporting on data is running the schema. -/
theorem evaluate_quiet :
    ∃ between left, view st between ∧ view (v.schema.validate data between).store left ∧
      (evaluate id data).runIn st =
        ((v.schema.validate data between).result.mapError Failure.fault, left) := by
  obtain ⟨between, same, before⟩ := trigger_quiet shown quiet .beforeValidate data
  obtain ⟨_, own⟩ := held
  obtain ⟨_, ownBetween⟩ := shown.validators same id v ⟨_, own⟩
  obtain ⟨⟨_, ownLater⟩, quietLater⟩ := still between same
  have visited := Action.runIn_ofVisit (v.schema.validate data) between
  rw [evaluate, Action.runIn_bind_of_ok (validatorAt_runIn own), Action.runIn_bind_of_ok before,
    Action.runIn_bind_of_ok (validatorAt_runIn ownBetween)]
  cases found : (v.schema.validate data between).result with
  | error f =>
      rw [found] at visited
      refine ⟨between, _, same, view.refl' _, ?_⟩
      rw [found]
      exact Action.runIn_bind_of_error visited _
  | ok report =>
      rw [found] at visited
      obtain ⟨left, sameToo, after⟩ :=
        trigger_quiet shown quietLater .afterValidate report.data
      refine ⟨between, left, same, sameToo, ?_⟩
      rw [Action.runIn_bind_of_ok visited]
      dsimp only
      rw [Action.runIn_bind_of_ok (validatorAt_runIn ownLater), Action.runIn_bind_of_ok after,
        Action.runIn_pure, found]
      rfl

/-- With such a registry, validating gives the verdict, and the report is remembered if there is
one. -/
theorem validate_quiet :
    ∃ between left, view st between ∧ view (v.schema.validate data between).store left ∧
      left.HasValidator id v ∧
      (validate id data).runIn st =
        match (v.schema.validate data between).result with
        | .ok report => (.ok report.valid, left.remembering id report)
        | .error f => (.error (.fault f), left) := by
  obtain ⟨between, left, same, sameToo, evaluated⟩ := evaluate_quiet shown held quiet data still
  have heldLater := shown.validators sameToo id v (still between same).1
  refine ⟨between, left, same, sameToo, heldLater, ?_⟩
  rw [validate_runIn_evaluate, evaluated]
  cases (v.schema.validate data between).result <;> rfl

/-- With such a registry, validating for a body fails as the run does, or gives the answer to its
report. -/
theorem requireBody_quiet (options : BodyOptions) :
    ∃ between left, view st between ∧ view (v.schema.validate data between).store left ∧
      left.HasValidator id v ∧
      match (v.schema.validate data between).result with
      | .error f => ((requireBody id data options).runIn st).1 = .error (.fault f)
      | .ok report =>
        ((requireBody id data options).runIn st).1 = v.schema.answer options left report ∧
          (report.valid = true →
            ((requireBody id data options).runIn st).2 = left.remembering id report) := by
  obtain ⟨between, left, same, sameToo, heldLater, validated⟩ :=
    validate_quiet shown held quiet data still
  have quietLater := (still between same).2.of_view shown sameToo
  refine ⟨between, left, same, sameToo, heldLater, ?_⟩
  rw [requireBody]
  cases found : (v.schema.validate data between).result with
  | error f =>
      rw [found] at validated
      rw [Action.runIn_bind_of_error validated]
  | ok report =>
      rw [found] at validated
      rw [Action.runIn_bind_of_ok validated]
      dsimp only
      have remembered := heldLater.remembering report
      cases verdict : report.valid with
      | true =>
          have read := readBody_runIn remembered rfl options
          have cells : (left.remembering id report).cells = left.cells := rfl
          rw [Store.head_congr cells] at read
          rw [if_pos rfl, read, Schema.answer, if_pos verdict]
          cases (left.head report.data).entries? <;> exact ⟨rfl, fun _ => rfl⟩
      | false =>
          have quietThen : (left.remembering id report).Quiet view v.registry := quietLater
          obtain ⟨after, -, told⟩ := trigger_quiet shown quietThen .getValidationErrors .null
          have read := readMessages_runIn remembered
          dsimp only at read
          rw [told] at read
          rw [if_neg Bool.false_ne_true, Action.runIn_bind_of_ok read, Schema.answer, verdict]
          cases messageTexts report.messages <;> exact ⟨rfl, nofun⟩

end Quiet

end

end DataContract
