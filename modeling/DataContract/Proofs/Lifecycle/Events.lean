/-
# The events of operations

What registries are told over a sequence of operations is one segment after the other. This asks
of the functions that are called on the way that they change no registry, and they may do any
operations but the registration of plugins: what they tell is one level deeper.
-/

import DataContract.Proofs.Lifecycle.Segments

set_option autoImplicit false

namespace DataContract

section

/-! ## Functions that do operations -/

variable [UserCode]

omit [UserCode] in
theorem required_beneath (id : Nat) (reading : Reading) :
    (requireReport id reading).Keeps (Store.Beneath 0) := by
  have upkeep := Store.upkeep_beneath 0
  refine (Action.Keeps.of_still upkeep (validatorAt_still id)).bind upkeep fun v => ?_
  exact .of_still upkeep fun st => by cases v.last <;> rfl

omit [UserCode] in
theorem readBody_still (id : Nat) (options : BodyOptions) :
    (readBody id options).Keeps fun st left => left = st := by
  intro st
  cases held : st.validators[id]? with
  | some v => exact after_readBody held options
  | none => rw [readBody, Action.runIn_bind_of_error (requireReport_runIn_of_unknown held _)]

section Aside

variable (aside : ∀ f : Callable, f.Preserves (Store.Beneath 1))

include aside

theorem compileIn_beneath (registry : Nat) (declaration : Value) (strict : Bool) :
    (compileIn registry declaration strict).Keeps (Store.Beneath 0) := by
  have upkeep := Store.upkeep_beneath 0
  refine (trigger_beneath aside registry .beforeParse declaration).bind upkeep fun given => ?_
  refine (Action.keeps_get upkeep).bind upkeep fun st => Action.Keeps.bind upkeep ?_ fun s => ?_
  · intro st
    rw [Action.runIn_ofDeclaration]
    exact upkeep.refl st
  · refine Action.Keeps.bind upkeep (fun st => ?_) fun id =>
      (trigger_beneath aside registry .afterParse (.schema id s)).bind upkeep fun _ =>
        Action.keeps_pure upkeep _
    obtain ⟨id, identities, identified⟩ := identify_runIn given st
    rw [identified]
    exact st.beneath_identities identities

theorem newValidator_beneath (registry : Nat) (declaration : Value) (strict : Bool) :
    (newValidator registry declaration strict).Keeps (Store.Beneath 0) := by
  have upkeep := Store.upkeep_beneath 0
  refine (compileIn_beneath aside registry declaration strict).bind upkeep ?_
  rintro ⟨schemaId, s⟩ st
  exact st.beneath_validators ⟨schemaId, s, registry, none⟩

theorem validate_beneath (id : Nat) (data : Value) :
    (validate id data).Keeps (Store.Beneath 0) := by
  intro st
  have evaluated := evaluate_beneath aside id data st
  rw [validate_runIn_evaluate]
  generalize (evaluate id data).runIn st = ran at evaluated ⊢
  obtain ⟨f | report, left⟩ := ran
  · exact evaluated
  · exact (Store.upkeep_beneath 0).trans evaluated (left.beneath_remembering id report)

theorem read_beneath {α : Type} (id : Nat) (reading : Reading) (event : HookEvent)
    (part : Report → α) :
    (do
      let report ← requireReport id reading
      let _ ← trigger (← validatorAt id).registry event .null
      return part report : Action α).Keeps (Store.Beneath 0) := by
  have upkeep := Store.upkeep_beneath 0
  refine (required_beneath id reading).bind upkeep fun report => ?_
  refine (Action.Keeps.of_still upkeep (validatorAt_still id)).bind upkeep fun v => ?_
  exact (trigger_beneath aside v.registry event .null).bind upkeep fun _ =>
    Action.keeps_pure upkeep _

theorem readMessages_beneath (id : Nat) : (readMessages id).Keeps (Store.Beneath 0) :=
  read_beneath aside id .messages .getValidationErrors Report.messages

theorem readViolations_beneath (id : Nat) : (readViolations id).Keeps (Store.Beneath 0) :=
  read_beneath aside id .grouped .getGroupedValidationErrors Report.violations

theorem requireBody_beneath (id : Nat) (data : Value) (options : BodyOptions) :
    (requireBody id data options).Keeps (Store.Beneath 0) := by
  have upkeep := Store.upkeep_beneath 0
  refine (validate_beneath aside id data).bind upkeep fun valid => ?_
  cases valid with
  | true => exact .of_still upkeep (readBody_still id options)
  | false =>
      refine (readMessages_beneath aside id).bind upkeep fun messages => ?_
      refine .of_still upkeep fun st => ?_
      cases messageTexts messages <;> rfl

/-- An operation that changes no registry: any but the registration of plugins. -/
def Operation.leavesRegistries : Operation → Bool
  | .extend _ _ => false
  | _ => true

/-- An operation that changes no registry tells nothing above its depth. -/
theorem Operation.act_beneath {op : Operation} (modest : op.leavesRegistries = true) :
    op.act.Keeps (Store.Beneath 0) := by
  have upkeep := Store.upkeep_beneath 0
  have done (u : Unit) : (pure u : Action Unit).Keeps (Store.Beneath 0) :=
    Action.keeps_pure upkeep u
  cases op with
  | extend registry plugins => cases modest
  | compile hooks declaration strict =>
      exact (compileIn_beneath aside _ declaration strict).bind upkeep fun _ => done ()
  | construct hooks declaration strict =>
      exact (newValidator_beneath aside _ declaration strict).bind upkeep fun _ => done ()
  | call id c =>
      refine Action.Keeps.bind upkeep ?_ fun _ => done ()
      cases c with
      | validate data =>
          exact (validate_beneath aside id data).bind upkeep fun _ => Action.keeps_pure upkeep _
      | evaluate data =>
          exact (evaluate_beneath aside id data).bind upkeep fun _ => Action.keeps_pure upkeep _
      | messages =>
          exact (readMessages_beneath aside id).bind upkeep fun _ => Action.keeps_pure upkeep _
      | violations =>
          exact (readViolations_beneath aside id).bind upkeep fun _ => Action.keeps_pure upkeep _
      | body options =>
          exact (Action.Keeps.of_still upkeep (readBody_still id options)).bind upkeep fun _ =>
            Action.keeps_pure upkeep _
  | validateBody hooks data declaration options =>
      refine Action.Keeps.bind upkeep ?_ fun _ => done ()
      refine Action.Keeps.bind upkeep ?_ fun id => requireBody_beneath aside id data options
      cases declaration with
      | validator id s => exact Action.keeps_pure upkeep id
      | _ => exact newValidator_beneath aside _ _ true

/-- So a function may do any operations but the registration of plugins. -/
theorem Operation.after_beneath {ops : List Operation}
    (modest : ∀ op ∈ ops, op.leavesRegistries = true) (st : Store) :
    Store.Beneath 0 st (Operation.after ops st) := by
  induction ops generalizing st with
  | nil => exact (Store.upkeep_beneath 0).refl st
  | cons op rest ih =>
      rw [List.forall_mem_cons] at modest
      exact (Store.upkeep_beneath 0).trans (op.act_beneath aside modest.1 st) (ih modest.2 _)

/-! ## All operations -/

/-- Operations in order tell their segments one after the other. -/
theorem Operation.told_all (ops : List Operation) (st : Store) :
    ∃ segments, Operation.Segments st ops segments ∧
      Told st segments.flatten (Operation.after ops st) := by
  induction ops generalizing st with
  | nil => exact ⟨[], .nil, .start⟩
  | cons op rest ih =>
      obtain ⟨os, first, segment⟩ := op.told aside st
      obtain ⟨later, others, told⟩ := ih (op.act.runIn st).2
      exact ⟨os :: later, .cons segment others, first.trans told⟩

/-- Over any operations, and whatever functions do as long as they change no registry, registries
are told one segment of events for each operation, in order: these are all events at the depth of
the operations, so all events of a registry that functions tell nothing. On each occasion all that
is registered is told, one after the other. -/
theorem operations_tell_segments (ops : List Operation) (st : Store) :
    ∃ segments more, Operation.Segments st ops segments ∧
      Told st segments.flatten (Operation.after ops st) ∧
      (Operation.after ops st).told = st.told ++ more ∧
      more.filter (·.depth == st.depth) = segments.flatten.map Occasion.telling ∧
      (∀ registry, (∀ t ∈ more, t.registry = registry → t.depth = st.depth) →
        more.filter (·.registry == registry) =
          (segments.map fun os =>
            (os.filter (·.registry == registry)).map Occasion.telling).flatten) ∧
      ∀ o ∈ segments.flatten, (trigger o.registry o.event o.payload).runIn o.before =
        (tellAll o.event (o.before.listeners o.registry) o.payload).runIn
          (o.before.noting o.telling) := by
  obtain ⟨segments, owned, told⟩ := Operation.told_all aside ops st
  obtain ⟨-, more, added, own, -⟩ := told.log aside
  refine ⟨segments, more, owned, told, added, own, fun registry atDepth => ?_,
    fun o _ => o.tells_all aside⟩
  -- A registry that functions tell nothing is told at the depth of the operations only.
  have here : more.filter (·.registry == registry) =
      (more.filter (·.depth == st.depth)).filter (·.registry == registry) := by
    rw [List.filter_filter]
    refine List.filter_congr fun t mem => ?_
    cases same : t.registry == registry with
    | false => rfl
    | true => simp [atDepth t mem (eq_of_beq same)]
  rw [here, own, List.filter_map, List.filter_flatten, List.map_flatten, List.map_map]
  rfl

end Aside

end

namespace Auditing

/-- A function that looks on. -/
def lookOn : Function :=
  { Function.refusing with call := fun payload st => ((.ok (), payload), st) }

/-- All functions look on. -/
abbrev onlookers : UserCode := ⟨fun _ => lookOn⟩

/-- A title is a text. -/
def declaration : Value := .object [(.text "title", .callable (.token .text))]

/-- What an audit does: it compiles a declaration, and tells registry 1 about that. -/
def inspections : List Operation := [.compile (some 1) declaration true]

/-- A function that makes an audit when it is called. -/
def audit : Function :=
  { Function.refusing with
    call := fun payload st => ((.ok (), payload), @Operation.after onlookers inspections st) }

/-- The first function makes an audit, and the others look on. -/
scoped instance : UserCode := ⟨fun | 0 => audit | _ => lookOn⟩

theorem lookOn_preserves (levels : Nat) : lookOn.Preserves (Store.Beneath levels) where
  produce := (Store.upkeep_beneath levels).refl
  call _ := (Store.upkeep_beneath levels).refl
  judge _ _ _ _ := (Store.upkeep_beneath levels).refl

/-- An audit changes no registry and tells nothing above its depth. -/
theorem audit_preserves : audit.Preserves (Store.Beneath 0) where
  produce := (Store.upkeep_beneath 0).refl
  judge _ _ _ _ := (Store.upkeep_beneath 0).refl
  call _ st := by
    have aside : ∀ f : Callable, @Callable.Preserves onlookers (Store.Beneath 1) f :=
      @Callable.preserves_beneath onlookers fun _ => lookOn_preserves 0
    exact @Operation.after_beneath onlookers aside inspections
      (List.forall_mem_singleton.mpr rfl) st

theorem aside : ∀ f : Callable, f.Preserves (Store.Beneath 1) :=
  Callable.preserves_beneath fun id => by
    cases id with
    | zero => exact audit_preserves
    | succ n => exact lookOn_preserves 0

/-- A store with an auditor, who makes an audit before data are validated and looks on when
declarations are compiled. Nobody is registered yet. -/
def store : Store :=
  { Store.empty with
    plugins := [⟨"auditor", [(.beforeValidate, .callable (.function 0 "audit")),
      (.beforeParse, .callable (.function 1 "lookOn"))]⟩],
    registries := [[], []] }

/-- Two validators are made and used, of which the first tells the registry of the auditor. -/
def operations : List Operation :=
  let data : Value := .object [(.text "title", .text "On keys")]
  [.extend 1 (.plugin 0 "auditor"), .construct (some 1) declaration true,
    .construct none declaration true, .call 1 (.validate data), .call 0 .messages,
    .call 0 (.validate data), .call 0 .messages, .call 0 (.body ⟨false, true⟩)]

end Auditing

open Auditing in
/-- The audit is told to the registry of the auditor one level deeper, between the two events of
the validation in which it is made. The other registry is told nothing of it, and a reading that is
refused and that of a body tell nothing at all. -/
theorem operations_tell_segments_auditor :
    ∃ segments, Operation.Segments store operations segments ∧
      (segments.flatten.map fun o => (o.registry, o.event)) =
        [(1, .pluginsInitialized), (1, .beforeParse), (1, .afterParse), (0, .beforeParse),
          (0, .afterParse), (0, .beforeValidate), (0, .afterValidate), (1, .beforeValidate),
          (1, .afterValidate), (1, .getValidationErrors)] ∧
      ((Operation.after operations store).told.filter (·.registry == 1)).map
          (fun t => (t.depth, t.event)) =
        [(0, .pluginsInitialized), (0, .beforeParse), (0, .afterParse), (0, .beforeValidate),
          (1, .beforeParse), (1, .afterParse), (0, .afterValidate), (0, .getValidationErrors)] := by
  obtain ⟨segments, more, owned, -, added, own, -⟩ :=
    operations_tell_segments aside operations store
  have log : ((Operation.after operations store).told.filter (·.depth == 0)).map
        (fun t => (t.registry, t.event)) =
      [(1, .pluginsInitialized), (1, .beforeParse), (1, .afterParse), (0, .beforeParse),
        (0, .afterParse), (0, .beforeValidate), (0, .afterValidate), (1, .beforeValidate),
        (1, .afterValidate), (1, .getValidationErrors)] := by decide +kernel
  have here : (Operation.after operations store).told = more := added
  have atDepth : more.filter (·.depth == 0) = segments.flatten.map Occasion.telling := own
  rw [here, atDepth, List.map_map] at log
  exact ⟨segments, owned, log, by decide +kernel⟩

end DataContract
