/-
# Entries of mappings

Insertion-ordered entries with keys compared by `Value.equal`. Writing to a key
that is there changes its value and keeps its place and its key object; a new key
goes to the end.
-/

import DataContract.Value.Equality

set_option autoImplicit false

namespace DataContract.Entries

/-- The value under a key. -/
def get? : Entries → Value → Option Value
  | [], _ => none
  | (k, v) :: rest, key => if k.equal key then some v else get? rest key

/-- Whether a key is there. -/
def contains (entries : Entries) (key : Value) : Bool := (get? entries key).isSome

/-- Writes a value under a key. -/
def put : Entries → Value → Value → Entries
  | [], key, value => [(key, value)]
  | (k, v) :: rest, key, value =>
    if k.equal key then (k, value) :: rest else (k, v) :: put rest key value

/-- Removes the entry of a key. -/
def erase : Entries → Value → Entries
  | [], _ => []
  | (k, v) :: rest, key => if k.equal key then rest else (k, v) :: erase rest key

/-- Writes all of some entries, in their order. -/
def putAll (entries more : Entries) : Entries :=
  more.foldl (fun written e => put written e.1 e.2) entries

/-- The mapping written by some entries, in which keys may repeat. -/
def ofPairs (pairs : Entries) : Entries := putAll [] pairs

/-- The keys in order. -/
def keys (entries : Entries) : List Value := entries.map (·.1)

/-- The value under a text key, `null` counting as absent. -/
def option? (entries : Entries) (name : String) : Option Value :=
  match get? entries (.text name) with
  | some .null => none
  | found => found

end DataContract.Entries
