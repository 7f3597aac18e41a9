/-
# The store

All that outlives an operation lies in a `Store`. A list or mapping that several
owners can reach lives in a cell, and its owners hold the number of the cell; values
that are not shared never touch a cell. Beside the cells the store holds the plugins,
the registries, the validators with their last reports, and what functions keep for
themselves.

The store also keeps count of what happens: which registries have been told about
which events, and at which depth. An operation of the library is at the depth of its
caller, and one that a function runs while it is called is one level deeper.

Registry 0 is the one that is used where no other is named.
-/

import DataContract.Lifecycle.Hook
import DataContract.Validation.Findings
import DataContract.Value.Entries

set_option autoImplicit false

namespace DataContract

/-- A validator: a compiled schema with its identity, the registry that it tells
about its runs, and the report of the last run. -/
structure Validator where
  schemaId : Nat
  schema : Schema
  registry : Nat
  last : Option Report

/-- A registry is told about an event. -/
structure Telling where
  depth : Nat
  registry : Nat
  event : HookEvent
  payload : Value

/-- The state that outlives an operation: the cells of shared values by number, the memory of
functions, which only they look at, the plugins and registries, the validators, the count of
the identities that were given out, what registries have been told, and how many functions
are being called. -/
structure Store where
  cells : List Value
  memory : List Value := []
  plugins : List Plugin := []
  registries : List (List Value) := [[]]
  validators : List Validator := []
  identities : Nat := 0
  told : List Telling := []
  depth : Nat := 0
deriving Inhabited

/-- The number of the default registry. -/
def defaultRegistry : Nat := 0

namespace Store

/-- A store in which nothing has happened; the default registry is empty. -/
def empty : Store := { cells := [] }

/-- The content of a cell. -/
def get? (st : Store) (cell : Nat) : Option Value := st.cells[cell]?

/-- Replaces the content of a cell. -/
def set (st : Store) (cell : Nat) (v : Value) : Store := { st with cells := st.cells.set cell v }

/-- A new cell, and its number. -/
def alloc (st : Store) (v : Value) : Nat × Store :=
  (st.cells.length, { st with cells := st.cells ++ [v] })

/-- The value itself, or the content of the cell that it names. -/
def head (st : Store) : Value → Value
  | .shared cell => (st.get? cell).getD .null
  | v => v

/-- Lets a function act, one level deeper. -/
def within {α : Type} (st : Store) (act : Store → α × Store) : α × Store :=
  let (a, left) := act { st with depth := st.depth + 1 }
  (a, { left with depth := st.depth })

end Store

mutual

/-- Puts every list and mapping of a value into a cell of its own, so that the
value can be held by several owners. -/
def Value.share : Value → Store → Value × Store
  | .list items, st =>
    let (items, st) := shareItems items st
    let (cell, st) := st.alloc (.list items)
    (.shared cell, st)
  | .object entries, st =>
    let (entries, st) := shareEntries entries st
    let (cell, st) := st.alloc (.object entries)
    (.shared cell, st)
  | .tuple items, st =>
    let (items, st) := shareItems items st
    (.tuple items, st)
  | .frozen entries, st =>
    let (entries, st) := shareEntries entries st
    (.frozen entries, st)
  | v, st => (v, st)
  termination_by structural v => v

/-- Shares some values in order. -/
def shareItems : List Value → Store → List Value × Store
  | [], st => ([], st)
  | v :: rest, st =>
    let (v, st) := v.share st
    let (rest, st) := shareItems rest st
    (v :: rest, st)
  termination_by structural items => items

/-- Shares the values of some entries in order. -/
def shareEntries : List (Value × Value) → Store → List (Value × Value) × Store
  | [], st => ([], st)
  | (k, v) :: rest, st =>
    let (v, st) := v.share st
    let (rest, st) := shareEntries rest st
    ((k, v) :: rest, st)
  termination_by structural entries => entries

/-- Replaces every shared part of a value by what `content` gives for its cell. -/
def Value.replaceShared (content : Nat → Value) : Value → Value
  | .list items => .list (replaceSharedItems content items)
  | .tuple items => .tuple (replaceSharedItems content items)
  | .set members => .set (replaceSharedItems content members)
  | .object entries => .object (replaceSharedEntries content entries)
  | .frozen entries => .frozen (replaceSharedEntries content entries)
  | .shared cell => content cell
  | v => v
  termination_by structural v => v

/-- Replaces the shared parts of some values. -/
def replaceSharedItems (content : Nat → Value) : List Value → List Value
  | [] => []
  | v :: rest => v.replaceShared content :: replaceSharedItems content rest
  termination_by structural items => items

/-- Replaces the shared parts of the values of some entries. -/
def replaceSharedEntries (content : Nat → Value) : List (Value × Value) → List (Value × Value)
  | [] => []
  | (k, v) :: rest => (k, v.replaceShared content) :: replaceSharedEntries content rest
  termination_by structural entries => entries

end

namespace Store

/-- A value with its shared parts written out, down to a depth of `bound` cells. -/
def writeOut (st : Store) : Nat → Value → Value
  | 0, v => v
  | bound + 1, v =>
    v.replaceShared fun cell => writeOut st bound ((st.get? cell).getD (.shared cell))

/-- A value with all its shared parts written out. A chain of cells that is longer than the
store leads back to a cell on it, so of data that contain themselves a part stays shared. -/
def plain (st : Store) (v : Value) : Value := st.writeOut (st.cells.length + 1) v

end Store

end DataContract
