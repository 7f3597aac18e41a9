/-
# Reading a document

`load` reads a text that holds one document, or nothing, and gives its value. Lists
and mappings that can be reached in several ways become shared cells. A fault does
not stop the making of values: of all faults the one nearest to the root counts,
and of several as near the first.
-/

import DataContract.Store
import DataContract.Yaml.NodeReader

set_option autoImplicit false

namespace DataContract.Yaml

/-- What has been made of the nodes so far: the cells, the values with a mark, and the
faults with their depths, the latest first. -/
structure Making where
  store : Store
  made : List (Nat × Value)
  faults : List (Nat × Error)

/-- A step in the making of values. -/
abbrev Maker := StateM Making

namespace Maker

/-- Takes note of a fault. -/
def fault (depth : Nat) (e : Error) : Maker Unit :=
  modify fun m => { m with faults := (depth, e) :: m.faults }

/-- Makes the value of a collection, once if it has a mark: then the value lives in a
cell, which its parts can name. -/
def once (mark : Option Nat) (make : Maker Value) : Maker Value := do
  match mark with
  | none => make
  | some n =>
    let m ← get
    match m.made.lookup n with
    | some v => return v
    | none =>
      let (cell, store) := m.store.alloc .null
      set { m with store, made := (n, .shared cell) :: m.made }
      let v ← make
      modify fun m => { m with store := m.store.set cell v }
      return .shared cell

/-- The value of the collection with a mark, which is being made. -/
def enclosing (mark : Nat) : Maker Value := do
  return ((← get).made.lookup mark).getD .null

/-- The depth at which a node with a tag is refused. What has the tag of a collection is
looked into before it is refused. -/
def refusalDepth (depth : Nat) : Tag → Nat
  | .sequence | .mapping | .set | .pairs => depth + 1
  | _ => depth

/-- A scalar, or a fault. -/
def ofScalar (depth : Nat) (tag : Tag) (text : String) : Maker Value := do
  match scalarValue tag text with
  | .ok v => return v
  | .error e =>
    fault (refusalDepth depth tag) e
    return .null

/-- Refuses a collection whose tag does not fit. -/
def refuseCollection (depth : Nat) (tag : Tag) : Maker Unit :=
  fault (refusalDepth depth tag) .meaning

end Maker

namespace Node

mutual

/-- Makes the value of a node. -/
def make (depth : Nat) : Node → Maker Value
  | .scalar tag text => Maker.ofScalar depth tag text
  | .sequence mark tag items =>
    Maker.once mark do
      if tag == .sequence then return .list (← makeItems (depth + 1) items)
      else if tag == .pairs then return .list (← makePairs (depth + 1) items)
      else
        Maker.refuseCollection depth tag
        return .null
  | .mapping mark tag mergeable entries =>
    Maker.once mark do
      if tag == .mapping || tag == .set then
        if !mergeable then Maker.fault (depth + 1) .meaning
        let made ← makeEntries (depth + 1) entries
        return if tag == .set then .set (Entries.keys (Entries.ofPairs made))
          else .object (Entries.ofPairs made)
      else
        Maker.refuseCollection depth tag
        return .null
  | .enclosing mark => Maker.enclosing mark
  termination_by structural node => node

/-- Makes the values of some nodes. -/
def makeItems (depth : Nat) : List Node → Maker (List Value)
  | [] => return []
  | node :: rest => do
    let v ← node.make depth
    return v :: (← makeItems depth rest)
  termination_by structural nodes => nodes

/-- Makes pairs of some nodes, each of which is a mapping with one entry. -/
def makePairs (depth : Nat) : List Node → Maker (List Value)
  | [] => return []
  | .mapping _ _ _ [(k, v)] :: rest => do
    let key ← k.make depth
    let value ← v.make depth
    return .tuple [key, value] :: (← makePairs depth rest)
  | _ :: _ => do
    Maker.fault depth .meaning
    return []
  termination_by structural nodes => nodes

/-- Makes the values of some entries; lists, mappings and sets cannot be keys. -/
def makeEntries (depth : Nat) : List (Node × Node) → Maker (List (Value × Value))
  | [] => return []
  | (k, v) :: rest => do
    let key ← k.make depth
    if !key.isKey then Maker.fault depth .meaning
    let value ← v.make depth
    return (key, value) :: (← makeEntries depth rest)
  termination_by structural entries => entries

end

end Node

/-- The fault nearest to the root, and of several as near the first; they stand the
latest first. -/
def nearestFault : List (Nat × Error) → Option (Nat × Error)
  | [] => none
  | (depth, e) :: earlier =>
    match nearestFault earlier with
    | some (d, found) => if d ≤ depth then some (d, found) else some (depth, e)
    | none => some (depth, e)

/-- The value of a node, with the cells of its shared parts. -/
def Node.value (node : Node) (st : Store) : Except Error (Value × Store) :=
  let (v, m) := (node.make 0).run ⟨st, [], []⟩
  match nearestFault m.faults with
  | some (_, e) => .error e
  | none => .ok (v, m.store)

/-- Refuses a text with a character that no document may hold. -/
def checkCharacters (cs : List Char) : Except Error Unit :=
  match cs.findIdx? (!isAdmitted ·) with
  | none => .ok ()
  | some index => .error (.character (cs[index]?.getD '\x00') index)

/-- Reads the document in a text. A text without a document stands for nothing. -/
def load (text : String) (st : Store) : Except Error (Value × Store) := do
  let cs := unifyBreaks text.toList
  checkCharacters cs
  match ← Node.ofTokens (TokenStream.ofChars cs) with
  | none => return (.null, st)
  | some node => node.value st

end DataContract.Yaml
