/-
# What registries are told over a run

The run of anything that is done with registries is a sequence of occasions, on each of which a
registry is told about an event, with silent stretches between them. Functions that are called
on the way may do such things too, but one level deeper. So what was told at the depth of the run
are its occasions, in order, and on each of them the registered values are told one after the
other.

That no function changes what is registered is asked for wherever it is needed. Functions may
well make registries and validators of their own.
-/

import DataContract.Proofs.Lifecycle.Telling

set_option autoImplicit false

namespace DataContract

namespace Store

/-- From one store to another, all that is told is told some levels below the first. -/
structure TellsBelow (levels : Nat) (st left : Store) : Prop where
  depth : left.depth = st.depth
  told : ∃ more, left.told = st.told ++ more ∧ ∀ t ∈ more, st.depth + levels ≤ t.depth

/-- From one store to another, all that is told is told some levels below the first, and what is
registered and what validators are stays. -/
structure Beneath (levels : Nat) (st left : Store) : Prop
    extends TellsBelow levels st left, Retains st left

variable {levels : Nat} {st between left : Store}

/-- Where nothing is told, nothing is told above any level. -/
theorem TellsBelow.of_same (depth : left.depth = st.depth) (told : left.told = st.told) :
    st.TellsBelow levels left :=
  ⟨depth, [], by rw [told, List.append_nil], fun _ mem => nomatch mem⟩

theorem TellsBelow.trans (first : st.TellsBelow levels between)
    (second : between.TellsBelow levels left) : st.TellsBelow levels left := by
  obtain ⟨more, told, below⟩ := first.told
  obtain ⟨further, toldThen, belowThen⟩ := second.told
  refine ⟨second.depth.trans first.depth, more ++ further, ?_, ?_⟩
  · rw [toldThen, told, List.append_assoc]
  · rw [first.depth] at belowThen
    exact List.forall_mem_append.mpr ⟨below, belowThen⟩

theorem upkeep_beneath (levels : Nat) : Store.Upkeep (Beneath levels) where
  refl _ := ⟨.of_same rfl rfl, List.prefix_refl _, fun _ _ held => held⟩
  trans first second :=
    ⟨first.toTellsBelow.trans second.toTellsBelow, first.registries.trans second.registries,
      fun id v held => second.validators id v (first.validators id v held)⟩
  entries _ _ _ := ⟨.of_same rfl rfl, List.prefix_refl _, fun _ _ held => held⟩
  item _ _ _ _ := ⟨.of_same rfl rfl, List.prefix_refl _, fun _ _ held => held⟩

/-- A telling of its own is at the depth of the store. -/
theorem beneath_noting (st : Store) (registry : Nat) (event : HookEvent) (payload : Value) :
    st.Beneath 0 (st.noting ⟨st.depth, registry, event, payload⟩) :=
  ⟨⟨rfl, [_], rfl, by simp⟩, List.prefix_refl _, fun _ _ held => held⟩

/-- What is told deeper is told below any level above. -/
theorem Beneath.weaken (below : st.Beneath 1 left) : st.Beneath 0 left := by
  obtain ⟨⟨depth, more, told, deeper⟩, registries, validators⟩ := below
  exact ⟨⟨depth, more, told, fun t mem => Nat.le_of_succ_le (deeper t mem)⟩, registries, validators⟩

/-- Nothing is told where an identity is given out, a validator is made or one remembers a
report. -/
theorem beneath_identities (st : Store) (identities : Nat) :
    st.Beneath levels { st with identities } :=
  ⟨.of_same rfl rfl, List.prefix_refl _, fun _ _ held => held⟩

theorem beneath_validators (st : Store) (made : Validator) :
    st.Beneath levels { st with validators := st.validators ++ [made] } := by
  refine ⟨.of_same rfl rfl, List.prefix_refl _, ?_⟩
  rintro id v ⟨last, held⟩
  have inside : id < st.validators.length := (List.getElem?_eq_some_iff.mp held).1
  exact ⟨last, (List.getElem?_append_left inside).trans held⟩

theorem beneath_remembering (st : Store) (id : Nat) (report : Report) :
    st.Beneath levels (st.remembering id report) := by
  refine ⟨.of_same rfl rfl, List.prefix_refl _, ?_⟩
  rintro n v ⟨last, held⟩
  by_cases same : id = n
  · subst same
    exact ⟨some report, HasValidator.remembering ⟨last, held⟩ report⟩
  · exact ⟨last, (List.getElem?_modify_ne _ _ same).trans held⟩

/-- What is told in a function that is called is told one level deeper. -/
theorem within_beneath {α : Type} {act : Store → α × Store} (own : ∀ st, Beneath 0 st (act st).2)
    (st : Store) : st.Beneath 1 (st.within act).2 := by
  obtain ⟨⟨-, more, told, below⟩, registries, validators⟩ := own { st with depth := st.depth + 1 }
  exact ⟨⟨rfl, more, told, below⟩, registries, validators⟩

/-- A registry that there is keeps its listeners. -/
theorem listeners_of_prefix (stays : st.registries <+: left.registries) {registry : Nat}
    {listener : Value} (listed : listener ∈ st.listeners registry) :
    left.listeners registry = st.listeners registry := by
  rw [listeners] at listed ⊢
  cases there : st.registries[registry]? with
  | none =>
      rw [there] at listed
      cases listed
  | some plugins =>
      obtain ⟨more, own⟩ := stays
      have inside : registry < st.registries.length := (List.getElem?_eq_some_iff.mp there).1
      rw [listeners, ← own, List.getElem?_append_left inside, there]

end Store

section

variable [UserCode]

/-- A function of a user keeps something of the store, in whichever way it acts. -/
structure Function.Preserves (keeps : Store → Store → Prop) (g : Function) : Prop where
  produce : ∀ st, keeps st (g.produce st).2
  call : ∀ payload st, keeps st (g.call payload st).2
  judge : ∀ key v record s st, keeps st (g.judge key v record s st).2

/-- Functions that change no registry and tell nothing above the depth at which they run tell only
below the depth at which they are called. -/
theorem Callable.preserves_beneath
    (each : ∀ id, (UserCode.function id).Preserves (Store.Beneath 0)) (f : Callable) :
    f.Preserves (Store.Beneath 1) where
  produce st := by
    cases f with
    | token t => cases t <;> exact (Store.upkeep_beneath 1).refl st
    | function id name => exact Store.within_beneath (each id).produce st
  judge key v record s st := by
    cases f with
    | token t => exact (Store.upkeep_beneath 1).refl st
    | function id name => exact Store.within_beneath ((each id).judge key v record s) st
  call payload st := by
    cases f with
    | token t => exact (Store.upkeep_beneath 1).refl st
    | function id name => exact Store.within_beneath ((each id).call payload) st

theorem Callable.Preserves.weaken {f : Callable} (aside : f.Preserves (Store.Beneath 1)) :
    f.Preserves (Store.Beneath 0) :=
  ⟨⟨fun st => (aside.produce st).weaken, fun key v record s st =>
    (aside.judge key v record s st).weaken⟩, fun payload st => (aside.call payload st).weaken⟩

/-- Tells some listeners about an event, one after the other. -/
def tellAll (event : HookEvent) : List Value → Value → Action Value
  | [], payload => return payload
  | listener :: rest, payload => do tellAll event rest (← tell event payload listener)

/-! ## One occasion -/

/-- A registry is told about an event. -/
structure Occasion where
  registry : Nat
  event : HookEvent
  payload : Value
  before : Store

namespace Occasion

/-- What comes of an occasion: the payload as plugins leave it, or why one of them fails. -/
def outcome (o : Occasion) : Except Failure Value :=
  ((trigger o.registry o.event o.payload).runIn o.before).1

/-- The store after an occasion. -/
def after (o : Occasion) : Store := ((trigger o.registry o.event o.payload).runIn o.before).2

omit [UserCode] in
/-- What the store takes note of on an occasion. -/
def telling (o : Occasion) : Telling := ⟨o.before.depth, o.registry, o.event, o.payload⟩

theorem fault_of_outcome {o : Occasion} {e : Failure} (failed : o.outcome = .error e) :
    ∃ f, e = .fault f :=
  trigger_onlyFaults o.registry o.event o.payload o.before e failed

end Occasion

section Aside

variable (aside : ∀ f : Callable, f.Preserves (Store.Beneath 1))

include aside

/-- As long as nobody changes a registry while it is told, what is listed from a position on is
told in order. -/
theorem tellFrom_runIn {registry : Nat} (event : HookEvent) {room position : Nat} (payload : Value)
    {st : Store} (enough : (st.listeners registry).length ≤ room + position) :
    (tellFrom registry event room position payload).runIn st =
      (tellAll event ((st.listeners registry).drop position) payload).runIn st := by
  -- What is listed stays where it is, so each listener is met at its position.
  induction room generalizing position payload st with
  | zero =>
      rw [List.drop_eq_nil_of_le (by omega)]
      rfl
  | succ room ih =>
      rw [tellFrom, Action.runIn_bind_of_ok (registered_runIn registry st)]
      cases found : (st.listeners registry)[position]? with
      | none =>
          rw [List.drop_eq_nil_of_le (List.getElem?_eq_none_iff.mp found)]
          rfl
      | some listener =>
          obtain ⟨inside, own⟩ := List.getElem?_eq_some_iff.mp found
          rw [List.drop_eq_getElem_cons inside, own, tellAll, Action.runIn_bind, Action.runIn_bind]
          have stays :=
            (tell_keeps (Store.upkeep_beneath 1) aside event payload listener st).registries
          generalize (tell event payload listener).runIn st = ran at stays ⊢
          obtain ⟨_ | left, between⟩ := ran
          · rfl
          · have same := Store.listeners_of_prefix stays (own ▸ List.getElem_mem inside)
            dsimp only
            rw [ih left (by rw [same]; omega), same]

namespace Occasion

/-- On an occasion all that is registered is told, one after the other. -/
theorem tells_all (o : Occasion) :
    (trigger o.registry o.event o.payload).runIn o.before =
      (tellAll o.event (o.before.listeners o.registry) o.payload).runIn
        (o.before.noting o.telling) := by
  obtain ⟨room, enough, begun⟩ := trigger_runIn o.registry o.event o.payload o.before
  rw [begun]
  exact tellFrom_runIn aside o.event o.payload (Nat.le_add_right_of_le enough)

/-- After the occasion has been noted, only functions tell anything. -/
theorem after_beneath (o : Occasion) : (o.before.noting o.telling).Beneath 1 o.after := by
  obtain ⟨room, -, begun⟩ := trigger_runIn o.registry o.event o.payload o.before
  rw [after, begun]
  exact tellFrom_keeps (Store.upkeep_beneath 1) aside o.registry o.event room 0 o.payload _

end Occasion

end Aside

/-! ## All occasions -/

/-- From a store on, registries were told about events, in order, and nothing else was told at
the depth of the store. -/
inductive Told (st : Store) : List Occasion → Store → Prop where
  | start : Told st [] st
  | event {os : List Occasion} {u : Store} (before : Told st os u) (registry : Nat)
      (event : HookEvent) (payload : Value) :
      Told st (os ++ [⟨registry, event, payload, u⟩]) (Occasion.mk registry event payload u).after
  | silent {os : List Occasion} {u later : Store} (before : Told st os u)
      (below : u.TellsBelow 1 later) : Told st os later

namespace Told

theorem trans {st u later : Store} {os more : List Occasion} (first : Told st os u)
    (second : Told u more later) : Told st (os ++ more) later := by
  induction second with
  | start => simpa using first
  | event _ registry event payload ih =>
      rw [← List.append_assoc]
      exact ih.event registry event payload
  | silent _ below ih => exact ih.silent below

theorem occasion {st u later : Store} {os : List Occasion} {registry : Nat} {event : HookEvent}
    {payload : Value} {outcome : Except Failure Value} (before : Told st os u)
    (ran : (trigger registry event payload).runIn u = (outcome, later)) :
    Told st (os ++ [⟨registry, event, payload, u⟩]) later := by
  have told := before.event registry event payload
  rw [Occasion.after, ran] at told
  exact told

/-- What was told at the depth of a store is what it was told on the occasions, in order; all else
was told deeper. -/
theorem log (aside : ∀ f : Callable, f.Preserves (Store.Beneath 1)) {st u : Store}
    {os : List Occasion} (told : Told st os u) :
    u.depth = st.depth ∧ ∃ more, u.told = st.told ++ more ∧
      more.filter (·.depth == st.depth) = os.map Occasion.telling ∧
      ∀ t ∈ more, st.depth ≤ t.depth := by
  have deeper {more : List Telling} (below : ∀ t ∈ more, st.depth + 1 ≤ t.depth) :
      more.filter (·.depth == st.depth) = [] := by
    refine List.filter_eq_nil_iff.mpr fun t mem same => ?_
    have level := below t mem
    have own := eq_of_beq same
    omega
  induction told with
  | start => exact ⟨rfl, [], (List.append_nil _).symm, rfl, fun _ mem => nomatch mem⟩
  | @event os u _ registry event payload ih =>
      obtain ⟨depth, more, added, own, below⟩ := ih
      let o : Occasion := ⟨registry, event, payload, u⟩
      obtain ⟨⟨depthThen, further, addedThen, belowThen⟩, -, -⟩ := o.after_beneath aside
      have level : (u.noting o.telling).depth = st.depth := depth
      rw [level] at depthThen belowThen
      refine ⟨depthThen, more ++ o.telling :: further, ?_, ?_, ?_⟩
      · rw [addedThen, Store.noting, added, List.append_assoc, List.append_assoc]
        rfl
      · have here : (o.telling :: further).filter (·.depth == st.depth) = [o.telling] := by
          have atDepth : (o.telling.depth == st.depth) = true := beq_iff_eq.mpr depth
          rw [List.filter_cons, if_pos atDepth, deeper belowThen]
        rw [List.filter_append, own, here, List.map_append]
        rfl
      · refine List.forall_mem_append.mpr ⟨below, List.forall_mem_cons.mpr ⟨depth.ge, ?_⟩⟩
        exact fun t mem => Nat.le_of_succ_le (belowThen t mem)
  | silent _ quiet ih =>
      obtain ⟨depth, more, added, own, below⟩ := ih
      obtain ⟨depthThen, further, addedThen, belowThen⟩ := quiet
      rw [depth] at depthThen belowThen
      refine ⟨depthThen, more ++ further, ?_, ?_, ?_⟩
      · rw [addedThen, added, List.append_assoc]
      · rw [List.filter_append, own, deeper belowThen, List.append_nil]
      · exact List.forall_mem_append.mpr
          ⟨below, fun t mem => Nat.le_of_succ_le (belowThen t mem)⟩

end Told

end

end DataContract
