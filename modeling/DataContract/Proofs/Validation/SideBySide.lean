/-
# Two runs side by side

Two runs go side by side if they answer or fail together, leave related parts behind and
the same store. What they find is related part by part, so this is shown part by part:
each way in which a run is put together has one lemma here, and a relation between two
runs needs nothing but its cases along the schema.
-/

import DataContract.Proofs.Validation.Frame
import Mathlib.Data.List.Forall2

set_option autoImplicit false

namespace DataContract

/-- Two outcomes are both answers or both failures, and related as such. -/
inductive Paired {α β : Type} (faults : Fault → Fault → Prop) (found : α → β → Prop) :
    Except Fault α → Except Fault β → Prop
  | error {f g : Fault} (related : faults f g) : Paired faults found (.error f) (.error g)
  | ok {a : α} {b : β} (related : found a b) : Paired faults found (.ok a) (.ok b)

namespace Paired

variable {α β γ δ : Type} {faults : Fault → Fault → Prop} {found : α → β → Prop}
  {found' : γ → δ → Prop} {x : Except Fault α} {y : Except Fault β}

theorem exists_ok (paired : Paired faults found x y) {a : α} (answered : x = .ok a) :
    ∃ b, y = .ok b ∧ found a b := by
  subst answered
  cases paired with
  | ok related => exact ⟨_, rfl, related⟩

/-- Two outcomes that go with a third one go with each other. -/
theorem common {z : Except Fault γ} {first : α → γ → Prop} {second : β → γ → Prop}
    (left : Paired Eq first x z) (right : Paired Eq second y z)
    (meet : ∀ a b c, first a c → second b c → found a b) : Paired Eq found x y := by
  cases left with
  | error same =>
      cases right with
      | error same' => exact .error (same.trans same'.symm)
  | ok related =>
      cases right with
      | ok related' => exact .ok (meet _ _ _ related related')

/-- What is known of each answer is known of both. -/
theorem and (paired : Paired faults found x y) {first : α → Prop} {second : β → Prop}
    (own : ∀ a, x = .ok a → first a) (own' : ∀ b, y = .ok b → second b) :
    Paired faults (fun a b => found a b ∧ first a ∧ second b) x y := by
  cases paired with
  | error related => exact .error related
  | ok related => exact .ok ⟨related, own _ rfl, own' _ rfl⟩

/-- Both answers are looked at further. -/
theorem bind (paired : Paired faults found x y) {f : α → Except Fault γ} {g : β → Except Fault δ}
    (further : ∀ a b, found a b → Paired faults found' (f a) (g b)) :
    Paired faults found' (x.bind f) (y.bind g) := by
  cases paired with
  | error related => exact .error related
  | ok related => exact further _ _ related

theorem map (paired : Paired faults found x y) {f : α → γ} {g : β → δ}
    (further : ∀ a b, found a b → found' (f a) (g b)) :
    Paired faults found' (x.map f) (y.map g) := by
  cases paired with
  | error related => exact .error related
  | ok related => exact .ok (further _ _ related)

/-- Related elements become related things together. -/
theorem mapM {f : α → Except Fault γ} {g : β → Except Fault δ} {items : List α} {others : List β}
    (each : ∀ a b, found a b → Paired faults found' (f a) (g b))
    (related : List.Forall₂ found items others) :
    Paired faults (List.Forall₂ found') (items.mapM f) (others.mapM g) := by
  induction related with
  | nil => exact .ok .nil
  | cons head _ ih =>
      rw [List.mapM_cons, List.mapM_cons]
      exact (each _ _ head).bind fun _ _ first => ih.map fun _ _ later => .cons first later

theorem of_eq (reflexive : ∀ f, faults f f) {same : α → α → Prop} (alike : ∀ a, same a a)
    (x : Except Fault α) : Paired faults same x x := by
  cases x with
  | error f => exact .error (reflexive f)
  | ok a => exact .ok (alike a)

end Paired

/-- Two visits go side by side. -/
structure Visit.Paired {σ α β : Type} (faults : Fault → Fault → Prop) (parts : σ → σ → Prop)
    (found : α → β → Prop) (w : Visit σ α) (w' : Visit σ β) : Prop where
  result : DataContract.Paired faults found w.result w'.result
  left : parts w.left w'.left
  store : w'.store = w.store

namespace Visit.Paired

variable {σ τ α β γ δ : Type} {faults : Fault → Fault → Prop} {parts : σ → σ → Prop}
  {found : α → β → Prop} {found' : γ → δ → Prop} {w : Visit σ α} {w' : Visit σ β}

theorem done {a : α} {b : β} {x y : σ} (answers : found a b) (related : parts x y) (st : Store) :
    (Visit.done a x st).Paired faults parts found (Visit.done b y st) :=
  ⟨.ok answers, related, rfl⟩

theorem ofExcept {a : Except Fault α} {b : Except Fault β} {x y : σ}
    (answers : DataContract.Paired faults found a b) (related : parts x y) (st : Store) :
    (Visit.ofExcept a x st).Paired faults parts found (Visit.ofExcept b y st) :=
  ⟨answers, related, rfl⟩

theorem and (paired : w.Paired faults parts found w') {first : α → Prop} {second : β → Prop}
    (own : ∀ a, w.result = .ok a → first a) (own' : ∀ b, w'.result = .ok b → second b) :
    w.Paired faults parts (fun a b => found a b ∧ first a ∧ second b) w' :=
  ⟨paired.result.and own own', paired.left, paired.store⟩

theorem embed (paired : w.Paired faults parts found w') {wholes : τ → τ → Prop} {f g : σ → τ}
    (built : ∀ x y, parts x y → wholes (f x) (g y)) :
    (w.embed f).Paired faults wholes found (w'.embed g) :=
  ⟨paired.result, built _ _ paired.left, paired.store⟩

theorem tally (paired : w.Paired faults parts found w') (count : α → Tally) (count' : β → Tally) :
    (w.tally count).Paired faults parts found (w'.tally count') := by
  obtain ⟨result, left, store⟩ := w.tally_same count
  obtain ⟨result', left', store'⟩ := w'.tally_same count'
  refine ⟨?_, ?_, ?_⟩
  · rw [result, result']
    exact paired.result
  · rw [left, left']
    exact paired.left
  · rw [store, store']
    exact paired.store

theorem map (paired : w.Paired faults parts found w') {f : α → γ} {g : β → δ}
    (further : ∀ a b, found a b → found' (f a) (g b)) :
    (w.map f).Paired faults parts found' (w'.map g) :=
  ⟨paired.result.map further, paired.left, paired.store⟩

theorem check (paired : w.Paired faults parts found w') {f : α → Except Fault γ}
    {g : β → Except Fault δ}
    (further : ∀ a b, found a b → DataContract.Paired faults found' (f a) (g b)) :
    (w.check f).Paired faults parts found' (w'.check g) :=
  ⟨paired.result.bind further, paired.left, paired.store⟩

/-- Both go on where they have left off. -/
theorem andThen (paired : w.Paired faults parts found w')
    {next : α → σ → Store → Visit σ γ} {next' : β → σ → Store → Visit σ δ}
    (further : ∀ a b x y st, found a b → parts x y →
      (next a x st).Paired faults parts found' (next' b y st)) :
    (w.andThen next).Paired faults parts found' (w'.andThen next') := by
  obtain ⟨result, left, store⟩ := paired
  rw [Visit.andThen, Visit.andThen]
  generalize w.result = x at result
  generalize w'.result = y at result
  cases result with
  | error related => exact ⟨.error related, left, store⟩
  | ok related =>
      rw [store]
      have later := further _ _ _ _ w.store related left
      exact ⟨later.result, later.left, later.store⟩

/-- What both find in one part after the other. -/
theorem append {found : α → β → Prop} {first : Visit σ (List α)} {first' : Visit σ (List β)}
    {next : σ → Store → Visit σ (List α)} {next' : σ → Store → Visit σ (List β)}
    (head : first.Paired faults parts (List.Forall₂ found) first')
    (further : ∀ x y st, parts x y →
      (next x st).Paired faults parts (List.Forall₂ found) (next' y st)) :
    (first.andThen fun found x st => (next x st).map (found ++ ·)).Paired faults parts
      (List.Forall₂ found) (first'.andThen fun found x st => (next' x st).map (found ++ ·)) :=
  head.andThen fun _ _ x y st earlier related =>
    (further x y st related).map fun _ _ later => List.rel_append earlier later

end Visit.Paired

/-- Items are asked in the same order, and both stop at the same one. -/
theorem Walk.allItems_paired {faults : Fault → Fault → Prop} {parts : Value → Value → Prop}
    {walk walk' : Walk Bool}
    (each : ∀ v v' st, parts v v' → (walk v st).Paired faults parts Eq (walk' v' st))
    {items items' : List Value} (related : List.Forall₂ parts items items') (st : Store) :
    (Walk.allItems walk items st).Paired faults (List.Forall₂ parts) Eq
      (Walk.allItems walk' items' st) := by
  induction related generalizing st with
  | nil => exact .done rfl .nil st
  | @cons v v' rest rest' head tail ih =>
      obtain ⟨result, left, store⟩ := each v v' st head
      rw [allItems, allItems]
      generalize (walk v st).result = x at result
      generalize (walk' v' st).result = y at result
      cases result with
      | error related => exact ⟨.error related, .cons left tail, store⟩
      | @ok answer _ same =>
          subst same
          cases answer with
          | false => exact ⟨.ok rfl, .cons left tail, store⟩
          | true =>
              rw [store]
              have others := ih (walk v st).store
              exact ⟨others.result, .cons left others.left, others.store⟩

/-! ## Runs over the same data -/

section Same

variable {α β σ τ : Type} {faults : Fault → Fault → Prop} {found : α → β → Prop}

/-- What was left alike is put back alike. -/
theorem Visit.Paired.settle {w : Visit σ α} {w' : Visit σ β} (paired : w.Paired faults Eq found w')
    (f : σ → Store → τ × Store) : (w.settle f).Paired faults Eq found (w'.settle f) := by
  refine ⟨paired.result, ?_, ?_⟩
  · rw [Visit.settle, Visit.settle, paired.left, paired.store]
  · rw [Visit.settle, Visit.settle, paired.left, paired.store]

theorem Walk.ofEntries_paired {found : List Violation → List Violation → Prop}
    {walk walk' : Home → Entries → Store → Visit Entries (List Violation)}
    (each : ∀ home entries st,
      (walk home entries st).Paired faults Eq found (walk' home entries st))
    (same : found [.notARecord] [.notARecord]) (v : Value) (st : Store) :
    (Walk.ofEntries walk v st).Paired faults Eq found (Walk.ofEntries walk' v st) := by
  rw [ofEntries, ofEntries]
  split
  next home entries _ => exact (each home entries st).embed fun _ _ => congrArg home.value
  · exact .done same rfl st

theorem Walk.allInCell_paired {walk walk' : Walk Bool}
    (each : ∀ v st, (walk v st).Paired faults Eq Eq (walk' v st)) (cell room position : Nat)
    (st : Store) :
    (Walk.allInCell walk cell room position st).Paired faults Eq Eq
      (Walk.allInCell walk' cell room position st) := by
  induction room generalizing position st with
  | zero => exact .done rfl rfl st
  | succ room ih =>
      rw [allInCell, allInCell]
      split
      · exact .done rfl rfl st
      next v _ =>
        refine ((each v st).settle _).andThen fun fits _ _ _ st same _ => ?_
        subst same
        cases fits with
        | true => exact ih (position + 1) st
        | false => exact .done rfl rfl st

theorem Walk.ofItems_paired {walk walk' : Walk Bool}
    (each : ∀ v st, (walk v st).Paired faults Eq Eq (walk' v st)) (v : Value) (st : Store) :
    (walk.ofItems v st).Paired faults Eq Eq (walk'.ofItems v st) := by
  have asked (items : List Value) (st : Store) :
      (Walk.allItems walk items st).Paired faults Eq Eq (Walk.allItems walk' items st) := by
    rw [← List.forall₂_eq_eq_eq]
    exact Walk.allItems_paired (fun v _ st same => same ▸ each v st)
      (List.forall₂_same.mpr fun _ _ => rfl) st
  cases v with
  | list items => exact (asked items st).embed fun _ _ => congrArg Value.list
  | tuple items => exact (asked items st).embed fun _ _ => congrArg Value.tuple
  | shared cell =>
      rw [ofItems, ofItems]
      split
      · exact (Walk.allInCell_paired each cell _ 0 st).embed fun _ _ _ => rfl
      · exact .done rfl rfl st
  | _ => exact .done rfl rfl st

end Same

end DataContract
