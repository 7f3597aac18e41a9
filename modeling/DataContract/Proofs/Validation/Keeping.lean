/-
# What a run keeps of the store

A run writes into the cells of the data it walks over, and otherwise changes the store
only through the functions that it calls. So what neither of the two disturbs is there
after the run as it was before: a relation between stores that holds where a mapping or
list in a cell gets other entries or another item, and where a function is called,
holds from the beginning of a run to its end.

A cell that holds a mapping is such a thing, as nobody can make something else of a
mapping in its place: data that are a mapping are still one after the run.
-/

import DataContract.Proofs.Validation.Folding

set_option autoImplicit false

namespace DataContract

/-- A relation that holds between a store and what a run by itself makes of it, and between the
first and the last of several stores. -/
structure Store.Upkeep (keeps : Store → Store → Prop) : Prop where
  refl : ∀ st, keeps st st
  trans : ∀ {first second third}, keeps first second → keeps second third → keeps first third
  entries : ∀ (st : Store) cell entries,
    keeps st (st.set cell ((st.head (.shared cell)).withEntries entries))
  item : ∀ (st : Store) cell position v,
    keeps st (st.set cell ((st.head (.shared cell)).withItem position v))

namespace Store.Upkeep

variable {keeps : Store → Store → Prop} (upkeep : Store.Upkeep keeps)

include upkeep

theorem write (home : Home) (entries : Entries) (st : Store) :
    keeps st (home.write entries st).2 := by
  cases home with
  | cell c => exact upkeep.entries st c entries
  | _ => exact upkeep.refl st

theorem putBack (home : Home) (key v : Value) (inPlace : Bool) (entries : Entries) (left : Value)
    (st : Store) : keeps st (home.putBack key v inPlace entries left st).2 := by
  rw [Home.putBack]
  split
  · exact upkeep.write home _ st
  · exact upkeep.refl st

theorem putItem (st : Store) (cell position : Nat) (v left : Value) :
    keeps st (st.putItem cell position v left) := by
  rw [Store.putItem]
  split
  · exact upkeep.item st cell position left
  · exact upkeep.refl st

variable {σ α β : Type}

/-- What the parts of a visit keep, the visit keeps. -/
theorem andThen {st : Store} {w : Visit σ α} (first : keeps st w.store)
    {next : α → σ → Store → Visit σ β} (further : ∀ a x st, keeps st (next a x st).store) :
    keeps st (w.andThen next).store := by
  rw [Visit.andThen]
  split
  · exact first
  · exact upkeep.trans first (further _ _ _)

variable {walk : Walk Bool} (each : ∀ v st, keeps st (walk v st).store)

include each

theorem allItems (items : List Value) (st : Store) :
    keeps st (Walk.allItems walk items st).store := by
  induction items generalizing st with
  | nil => exact upkeep.refl st
  | cons v rest ih =>
      rw [Walk.allItems]
      split
      · exact upkeep.trans (each v st) (ih _)
      · exact each v st

theorem allInCell (cell room position : Nat) (st : Store) :
    keeps st (Walk.allInCell walk cell room position st).store := by
  induction room generalizing position st with
  | zero => exact upkeep.refl st
  | succ room ih =>
      rw [Walk.allInCell]
      split
      · exact upkeep.refl st
      next v _ =>
        refine upkeep.andThen (upkeep.trans (each v st) (upkeep.putItem _ cell position v _))
          fun fits _ st => ?_
        cases fits with
        | true => exact ih (position + 1) st
        | false => exact upkeep.refl st

theorem ofItems (v : Value) (st : Store) : keeps st (walk.ofItems v st).store := by
  cases v with
  | list items | tuple items => exact upkeep.allItems each items st
  | shared cell =>
      obtain ⟨room, -, same⟩ := walk.ofItems_room cell st
      rw [same]
      split
      · exact upkeep.allInCell each cell room 0 st
      · exact upkeep.refl st
  | _ => exact upkeep.refl st

end Store.Upkeep

section

variable [UserCode]

/-- A function keeps something of the store, however a run calls it. -/
structure Callable.Keeps (keeps : Store → Store → Prop) (f : Callable) : Prop where
  produce : ∀ st, keeps st (f.produce st).2
  judge : ∀ key v record s st, keeps st (f.judge key v record s st).2

variable {keeps : Store → Store → Prop} (upkeep : Store.Upkeep keeps)
  (kept : ∀ f : Callable, f.Keeps keeps)

include upkeep kept

namespace Rule

variable (r : Rule)

theorem defaultValue_keeps (st : Store) : keeps st (r.defaultValue st).2 := by
  rw [defaultValue]
  split
  next f _ =>
    have given := (kept f).produce st
    split <;> next outcome => rwa [outcome] at given
  · exact upkeep.refl st
  · exact upkeep.refl st
  · exact upkeep.refl st

theorem fill_keeps (home : Home) (entries : Entries) (st : Store) :
    keeps st (r.fill home entries st).store := by
  have given := r.defaultValue_keeps upkeep kept st
  rw [fill]
  split
  · generalize r.defaultValue st = made at given
    obtain ⟨_ | _ | v, left⟩ := made
    · exact given
    · exact given
    · exact upkeep.trans given (upkeep.write home _ left)
  · exact upkeep.refl st

theorem judgeCustom_keeps (s : Schema) (home : Home) (v : Value) (entries : Entries) (st : Store) :
    keeps st (r.judgeCustom s home v entries st).store := by
  rw [judgeCustom]
  split
  · exact upkeep.refl st
  next f _ => exact (kept f).judge r.name v (home.value entries) s st

/-- Applying a rule keeps what the check of its type keeps. -/
theorem walk_keeps (checked : ∀ v st, keeps st (r.type.check r r.name v st).store) (s : Schema)
    (home : Home) (entries : Entries) (st : Store) :
    keeps st (r.walk s home entries st).store := by
  rw [walk_eq]
  refine upkeep.andThen (r.fill_keeps upkeep kept home entries st) fun _ entries st => ?_
  split
  · exact upkeep.refl st
  next v _ =>
    refine upkeep.andThen (r.judgeCustom_keeps upkeep kept s home v entries st)
      fun judged entries st => ?_
    exact upkeep.trans (checked judged.value st)
      (upkeep.putBack home r.name judged.value judged.inPlace entries _ _)

end Rule

theorem walkRules_keeps {rules : List Rule}
    (checked : ∀ r ∈ rules, ∀ v st, keeps st (r.type.check r r.name v st).store) (s : Schema)
    (home : Home) (entries : Entries) (st : Store) :
    keeps st (walkRules rules s home entries st).store := by
  induction rules generalizing entries st with
  | nil => exact upkeep.refl st
  | cons r rest ih =>
      rw [List.forall_mem_cons] at checked
      rw [walkRules]
      exact upkeep.andThen (r.walk_keeps upkeep kept checked.1 s home entries st)
        fun _ entries st => ih checked.2 entries st

/-- What the functions of a user keep of the store, a run keeps. -/
theorem Schema.walk_keeps (s : Schema) (v : Value) (st : Store) : keeps st (s.walk v st).store := by
  refine (Schema.induction (S := fun s => ∀ v st, keeps st (s.walk v st).store)
    (T := fun t => (∀ r key v st, keeps st (t.check r key v st).store) ∧
      ∀ v st, keeps st (t.takes v st).store)
    ⟨?schema, ?scalar, ?nested, ?untyped, ?array⟩).1 s v st
  case schema =>
    intro s below v st
    rw [walk_eq, Walk.ofEntries]
    split
    next home entries _ =>
      have walked := walkRules_keeps upkeep kept (fun r mem => (below r mem).1 r r.name) s home
        entries st
      rw [← walkEntries_store] at walked
      exact walked
    · exact upkeep.refl st
  case scalar =>
    intro kind
    exact ⟨fun _ _ _ st => upkeep.refl st, fun _ st => upkeep.refl st⟩
  case nested =>
    intro s inner
    refine ⟨fun r key v st => ?_, inner⟩
    rw [TypeSpec.check]
    split
    · exact upkeep.refl st
    · exact inner v st
  case untyped =>
    refine ⟨fun r key v st => ?_, fun v st => upkeep.refl st⟩
    rw [TypeSpec.check]
    split <;> exact upkeep.refl st
  case array =>
    intro item inner
    refine ⟨fun r key v st => ?_, upkeep.ofItems inner.2⟩
    rw [TypeSpec.check]
    split
    · exact upkeep.refl st
    · exact upkeep.ofItems inner.2 v st

end

/-! ## Mappings in cells -/

/-- Cells that hold mappings still do. -/
def Store.KeepsMappings (before after : Store) : Prop :=
  ∀ cell, (before.head (.shared cell)).isMapping = true →
    (after.head (.shared cell)).isMapping = true

/-- What is in a cell after it has been written to. -/
theorem Store.head_set (st : Store) (cell other : Nat) (v : Value) :
    (st.set cell v).head (.shared other) =
      if cell = other ∧ cell < st.cells.length then v else st.head (.shared other) := by
  rw [head, head, get?, get?, set, List.getElem?_set]
  by_cases same : cell = other
  · subst same
    by_cases there : cell < st.cells.length <;> simp [there]
  · simp [same]

theorem Store.KeepsMappings.set {st : Store} {cell : Nat} {v : Value}
    (same : v.isMapping = (st.head (.shared cell)).isMapping) :
    st.KeepsMappings (st.set cell v) := by
  intro other mapping
  rw [Store.head_set]
  split
  next here =>
    rw [same, here.1]
    exact mapping
  · exact mapping

/-- A run by itself keeps mappings in cells. -/
theorem Store.upkeep_keepsMappings : Store.Upkeep Store.KeepsMappings where
  refl _ _ mapping := mapping
  trans first second cell mapping := second cell (first cell mapping)
  entries st cell entries := .set <| by cases st.head (.shared cell) <;> rfl
  item st cell position v := .set <| by cases st.head (.shared cell) <;> rfl

/-- A run leaves a mapping, held in a cell or not, where it has found one, if functions cannot make
something else of one. -/
theorem Schema.isMapping_head_walk [UserCode]
    (kept : ∀ f : Callable, f.Keeps Store.KeepsMappings) (s : Schema) {v : Value} {st : Store}
    (mapping : (st.head v).isMapping = true) :
    ((s.walk v st).store.head (s.walk v st).left).isMapping = true := by
  have cells := s.walk_keeps Store.upkeep_keepsMappings kept v st
  rw [← Value.isSome_home?] at mapping
  obtain ⟨⟨home, entries⟩, found⟩ := Option.isSome_iff_exists.mp mapping
  have left : (s.walk v st).left = home.value (s.walkEntries home entries st).left := by
    rw [walk_eq, Walk.ofEntries, found]
    rfl
  rw [left]
  cases home with
  | cell c =>
      refine cells c ?_
      obtain ⟨same, -, own⟩ := Value.home?_spec found
      rw [Home.value] at same
      rw [same, Value.isMapping_eq, own]
      rfl
  | _ => rfl

end DataContract
