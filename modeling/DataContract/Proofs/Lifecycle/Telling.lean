/-
# What telling plugins keeps

A plugin that is told about an event is a function of a user, which may do anything to the
store. What every function keeps of it, in whichever way it is called, is kept by telling a
registry about an event, whether that fails or not. So it is kept when data are reported on,
as long as the run of the schema by itself keeps it too. Telling fails only as functions do.
-/

import DataContract.Proofs.Lifecycle.Running
import DataContract.Proofs.Validation.Keeping

set_option autoImplicit false

namespace DataContract

/-- From one store to another, registries keep what is registered in them and validators stay what
they are, whatever they remember. There may be more of both. -/
structure Store.Retains (st left : Store) : Prop where
  registries : st.registries <+: left.registries
  validators : ∀ id v, st.HasValidator id v → left.HasValidator id v

namespace Action

variable {α β : Type} {keeps : Store → Store → Prop} {act : Action α} {next : α → Action β}

/-- An action keeps something of the store, also where it fails. -/
def Keeps (keeps : Store → Store → Prop) (act : Action α) : Prop :=
  ∀ st, keeps st (act.runIn st).2

/-- An action fails only as functions of a user do. -/
def OnlyFaults (act : Action α) : Prop :=
  ∀ st e, (act.runIn st).1 = .error e → ∃ f, e = .fault f

theorem onlyFaults_pure (a : α) : (pure a : Action α).OnlyFaults := fun _ _ failed => nomatch failed

theorem onlyFaults_get : (get : Action Store).OnlyFaults := fun _ _ failed => nomatch failed

theorem OnlyFaults.bind (first : act.OnlyFaults) (later : ∀ a, (next a).OnlyFaults) :
    (act >>= next).OnlyFaults := by
  intro st e failed
  have begun := first st
  rw [runIn_bind] at failed
  rcases ran : act.runIn st with ⟨g | a, between⟩ <;> rw [ran] at begun failed
  · exact begun e (congrArg Except.error (Except.error.inj failed))
  · exact later a between e failed

/-- What is done last leaves the store as it is, so the sequence leaves it as what is done first. -/
theorem after_bind (still : ∀ a, (next a).Keeps fun st left => left = st) (st : Store) :
    ((act >>= next).runIn st).2 = (act.runIn st).2 := by
  rw [runIn_bind]
  rcases act.runIn st with ⟨_ | a, between⟩
  · rfl
  · exact still a between

theorem still_pure (a : α) : (pure a : Action α).Keeps fun st left => left = st := fun _ => rfl

section Upkeep

variable (upkeep : Store.Upkeep keeps)

include upkeep

theorem Keeps.of_still (still : act.Keeps fun st left => left = st) : act.Keeps keeps := by
  intro st
  rw [still st]
  exact upkeep.refl st

theorem keeps_pure (a : α) : (pure a : Action α).Keeps keeps := .of_still upkeep (still_pure a)

theorem Keeps.bind (first : act.Keeps keeps) (later : ∀ a, (next a).Keeps keeps) :
    (act >>= next).Keeps keeps := by
  intro st
  have begun := first st
  rw [runIn_bind]
  rcases ran : act.runIn st with ⟨_ | a, between⟩ <;> rw [ran] at begun
  · exact begun
  · exact upkeep.trans begun (later a between)

theorem keeps_get : (get : Action Store).Keeps keeps := upkeep.refl

end Upkeep

end Action

theorem validatorAt_still (id : Nat) : (validatorAt id).Keeps fun st left => left = st := by
  intro st
  rw [validatorAt, Action.runIn_bind_of_ok (Action.runIn_get st)]
  cases st.validators[id]? <;> rfl

open DataContract.Action

section

variable [UserCode]

/-- A function keeps something of the store, in whichever way it is called. -/
structure Callable.Preserves (keeps : Store → Store → Prop) (f : Callable) : Prop
    extends Callable.Keeps keeps f where
  call : ∀ payload st, keeps st (f.call payload st).2

/-! ## How telling fails -/

theorem tell_onlyFaults (event : HookEvent) (payload listener : Value) :
    (tell event payload listener).OnlyFaults := by
  cases listener with
  | plugin id name =>
      refine onlyFaults_get.bind fun st => ?_
      split
      next f _ =>
        intro st e failed
        rw [callWith_runIn] at failed
        split at failed
        · cases failed
        next fault _ _ => exact ⟨fault, (Except.error.inj failed).symm⟩
      · exact onlyFaults_pure payload
  | _ => exact onlyFaults_pure payload

theorem tellFrom_onlyFaults (registry : Nat) (event : HookEvent) (room position : Nat)
    (payload : Value) : (tellFrom registry event room position payload).OnlyFaults := by
  induction room generalizing position payload with
  | zero => exact onlyFaults_pure payload
  | succ room ih =>
      rw [tellFrom]
      refine OnlyFaults.bind (onlyFaults_get.bind fun _ => onlyFaults_pure _) fun listeners => ?_
      split
      · exact onlyFaults_pure payload
      next listener _ => exact (tell_onlyFaults event payload listener).bind (ih (position + 1))

/-- Telling a registry about an event fails only with what a function raises. -/
theorem trigger_onlyFaults (registry : Nat) (event : HookEvent) (payload : Value) :
    (trigger registry event payload).OnlyFaults := by
  intro st e failed
  obtain ⟨room, -, begun⟩ := trigger_runIn registry event payload st
  rw [begun] at failed
  exact tellFrom_onlyFaults registry event room 0 payload _ e failed

/-! ## What telling keeps -/

variable {keeps : Store → Store → Prop} (upkeep : Store.Upkeep keeps)
  (kept : ∀ f : Callable, f.Preserves keeps)

include upkeep kept

theorem tell_keeps (event : HookEvent) (payload listener : Value) :
    (tell event payload listener).Keeps keeps := by
  cases listener with
  | plugin id name =>
      refine (keeps_get upkeep).bind upkeep fun st => ?_
      split
      next f _ =>
        intro st
        have called := (kept f).call payload st
        rw [callWith_runIn]
        split <;> exact called
      · exact keeps_pure upkeep payload
  | _ => exact keeps_pure upkeep payload

theorem tellFrom_keeps (registry : Nat) (event : HookEvent) (room position : Nat)
    (payload : Value) : (tellFrom registry event room position payload).Keeps keeps := by
  induction room generalizing position payload with
  | zero => exact keeps_pure upkeep payload
  | succ room ih =>
      rw [tellFrom]
      refine Keeps.bind upkeep ?_ fun listeners => ?_
      · exact (keeps_get upkeep).bind upkeep fun _ => keeps_pure upkeep _
      · split
        · exact keeps_pure upkeep payload
        next listener _ =>
          exact (tell_keeps upkeep kept event payload listener).bind upkeep (ih (position + 1))

theorem ofVisit_keeps (s : Schema) (data : Value) : (ofVisit (s.validate data)).Keeps keeps := by
  intro st
  rw [runIn_ofVisit]
  exact s.walk_keeps upkeep (fun f => (kept f).toKeeps) data st

variable (noted : ∀ (st : Store) registry event payload,
  keeps st (st.noting ⟨st.depth, registry, event, payload⟩))

include noted

theorem trigger_keeps (registry : Nat) (event : HookEvent) (payload : Value) :
    (trigger registry event payload).Keeps keeps := by
  intro st
  obtain ⟨room, -, begun⟩ := trigger_runIn registry event payload st
  rw [begun]
  exact upkeep.trans (noted st registry event payload)
    (tellFrom_keeps upkeep kept registry event room 0 payload _)

theorem evaluate_keeps (id : Nat) (data : Value) : (evaluate id data).Keeps keeps := by
  have found : (validatorAt id).Keeps keeps := .of_still upkeep (validatorAt_still id)
  refine found.bind upkeep fun v => ?_
  refine (trigger_keeps upkeep kept noted v.registry .beforeValidate data).bind upkeep ?_
  intro given
  refine found.bind upkeep fun v => (ofVisit_keeps upkeep kept v.schema given).bind upkeep ?_
  rintro ⟨report, left⟩
  refine found.bind upkeep fun v => ?_
  exact (trigger_keeps upkeep kept noted v.registry .afterValidate report.data).bind upkeep
    fun _ => keeps_pure upkeep _

end

end DataContract
