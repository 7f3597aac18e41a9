/-
# Visits

A run walks over data that it may change. `Visit σ α` is the outcome of walking
over a part of the data of type `σ`: what was found or the failure that stopped
the walk, the part and the store as they were left, and the tallies of the
schemas that were completed on the way. The part and the store are there also
after a failure, as what was written before it stays written.
-/

import DataContract.Validation.Home

set_option autoImplicit false

namespace DataContract

/-- The numbers of properties and of violations of one completed validation. -/
structure Tally where
  properties : Nat
  violations : Nat
deriving DecidableEq

/-- The outcome of walking over a part of the data. -/
@[ext]
structure Visit (σ α : Type) where
  result : Except Fault α
  left : σ
  store : Store
  tallies : List Tally

/-- A walk over a value. -/
abbrev Walk (α : Type) := Value → Store → Visit Value α

namespace Visit

variable {σ τ α β : Type}

/-- Leaves everything as it is. -/
def done (a : α) (left : σ) (store : Store) : Visit σ α := ⟨.ok a, left, store, []⟩

/-- Stops the walk or goes on with what is known beforehand. -/
def ofExcept (result : Except Fault α) (left : σ) (store : Store) : Visit σ α :=
  ⟨result, left, store, []⟩

/-- Goes on where a visit has left off. -/
def andThen (v : Visit σ α) (next : α → σ → Store → Visit σ β) : Visit σ β :=
  match v.result with
  | .error fault => ⟨.error fault, v.left, v.store, v.tallies⟩
  | .ok a =>
    let w := next a v.left v.store
    ⟨w.result, w.left, w.store, v.tallies ++ w.tallies⟩

/-- Changes what was found. -/
def map (f : α → β) (v : Visit σ α) : Visit σ β := ⟨v.result.map f, v.left, v.store, v.tallies⟩

/-- Changes what was found, or stops the walk. -/
def check (f : α → Except Fault β) (v : Visit σ α) : Visit σ β :=
  ⟨v.result.bind f, v.left, v.store, v.tallies⟩

/-- Takes the visit of a part for a visit of the whole. -/
def embed (f : σ → τ) (v : Visit σ α) : Visit τ α := ⟨v.result, f v.left, v.store, v.tallies⟩

/-- Takes the visit of a part for a visit of the whole, where putting the part back may change
the store. -/
def settle (f : σ → Store → τ × Store) (v : Visit σ α) : Visit τ α :=
  ⟨v.result, (f v.left v.store).1, (f v.left v.store).2, v.tallies⟩

/-- Adds a tally if the visit was completed. -/
def tally (count : α → Tally) (v : Visit σ α) : Visit σ α :=
  match v.result with
  | .ok a => { v with tallies := v.tallies ++ [count a] }
  | .error _ => v

end Visit

/-- Asks a question about items in order, up to the first one that answers no or
fails. -/
def Walk.allItems (walk : Walk Bool) : List Value → Store → Visit (List Value) Bool
  | [], st => Visit.done true [] st
  | v :: rest, st =>
    let w := walk v st
    match w.result with
    | .ok true =>
      let others := allItems walk rest w.store
      ⟨others.result, w.left :: others.left, others.store, w.tallies ++ others.tallies⟩
    | result => ⟨result, w.left :: rest, w.store, w.tallies⟩

/-- The greatest number of items that a list can have. -/
def greatestLength : Nat := 9223372036854775808

/-- Asks a question about the items of the list in a cell, from a position on and up to the
first one that answers no or fails. The list is looked at anew for each item, as the question
may reach and change it; so the number of items is bounded by `room` alone. -/
def Walk.allInCell (walk : Walk Bool) (cell : Nat) : (room position : Nat) → Store → Visit Unit Bool
  | 0, _, st => Visit.done true () st
  | room + 1, position, st =>
    match (st.items (.shared cell))[position]? with
    | none => Visit.done true () st
    | some v =>
      ((walk v st).settle fun left st => ((), st.putItem cell position v left)).andThen
        fun fits _ st =>
          if fits then allInCell walk cell room (position + 1) st else Visit.done false () st

/-- Asks a question about the items of a list or tuple; other values answer no. A list that
grows while it is asked about is followed up to the length that a list can have. -/
def Walk.ofItems (walk : Walk Bool) : Walk Bool
  | .list own, st => (allItems walk own st).embed .list
  | .tuple own, st => (allItems walk own st).embed .tuple
  | .shared cell, st =>
    if (st.head (.shared cell)).isArray then
      let room := (st.items (.shared cell)).length + greatestLength
      (allInCell walk cell room 0 st).embed fun _ => .shared cell
    else Visit.done false (.shared cell) st
  | v, st => Visit.done false v st

end DataContract
