/-
# Where data stand

A record that a run walks over is either owned by the run, which then has its entries
in hand, or it stands in a cell, where others can reach it and where it changes under
the run. A `Home` says which. To look at the record is to read the entries in hand or
the cell as it is now, and what is written goes to the same place.

A list or mapping inside a cell is a cell of its own if anybody else can reach it. One
that is owned by the cell is walked over as it is and put back into its place.
-/

import DataContract.Fault
import DataContract.Store

set_option autoImplicit false

namespace DataContract

namespace Value

/-- Whether a value is a list or mapping in hand, so that it can change without any cell
changing. -/
def isContainer : Value → Bool
  | .list _ | .tuple _ | .set _ | .object _ | .frozen _ => true
  | _ => false

/-- A value as a function has left it: what is no list or mapping in hand is what it was. -/
def leftAs (v left : Value) : Value := if v.isContainer then left else v

/-- A mapping with other entries. -/
def withEntries : Value → Entries → Value
  | .object _, entries => .object entries
  | .frozen _, entries => .frozen entries
  | v, _ => v

/-- A list or tuple with another item at a position. -/
def withItem : Value → Nat → Value → Value
  | .list items, position, v => .list (items.set position v)
  | .tuple items, position, v => .tuple (items.set position v)
  | w, _, _ => w

end Value

namespace Store

/-- The items of a list or tuple, also of one in a cell. -/
def items (st : Store) (v : Value) : List Value := ((st.head v).items?).getD []

/-- Puts an owned item back into the list in a cell; any other is there already. -/
def putItem (st : Store) (cell position : Nat) (v left : Value) : Store :=
  if v.isContainer then st.set cell ((st.head (.shared cell)).withItem position left) else st

end Store

/-- Where the mapping stands that a run walks over: in hand, or in a cell. A schema can be
walked over as a mapping too. -/
inductive Home where
  | object
  | frozen
  | schema (id : Nat) (s : Schema)
  | cell (cell : Nat)

namespace Home

/-- The mapping itself, with the entries in hand. -/
def value : Home → Entries → Value
  | .object, entries => .object entries
  | .frozen, entries => .frozen entries
  | .schema id s, _ => .schema id s
  | .cell c, _ => .shared c

/-- Whether the mapping can be written to. -/
def canWrite (st : Store) : Home → Bool
  | .object => true
  | .frozen | .schema _ _ => false
  | .cell c =>
    match st.head (.shared c) with
    | .object _ => true
    | _ => false

/-- The entries as they are now. -/
def look (home : Home) (entries : Entries) (st : Store) : Entries :=
  match home with
  | .cell c => ((st.head (.shared c)).entries?).getD []
  | _ => entries

/-- Writes the entries to where the mapping stands. -/
def write (home : Home) (entries : Entries) (st : Store) : Entries × Store :=
  match home with
  | .cell c => (entries, st.set c ((st.head (.shared c)).withEntries entries))
  | _ => (entries, st)

/-- Puts what has become of a value back into its place, unless it has been moved from there.
What is no list or mapping in hand is there already. -/
def putBack (home : Home) (key v : Value) (inPlace : Bool) (entries : Entries) (left : Value)
    (st : Store) : Entries × Store :=
  if inPlace && v.isContainer then home.write ((home.look entries st).put key left) st
  else (entries, st)

end Home

/-- The home of a mapping, and its entries. -/
def Value.home? (v : Value) (st : Store) : Option (Home × Entries) :=
  match v with
  | .object entries => some (.object, entries)
  | .frozen entries => some (.frozen, entries)
  | .schema id s => some (.schema id s, schemaEntries s)
  | .shared cell => ((st.head (.shared cell)).entries?).map fun entries => (.cell cell, entries)
  | _ => none

end DataContract
