/-
# Nodes of a document

The tree that the tokens of a document form. A collection that can be reached in
several ways, because it or a collection around it has an anchor, has a mark by
which it is recognised. Mappings hold their entries as they are after merging: the
entries that are merged come first, and a merge of something that is no mapping is
remembered as a fault.
-/

import DataContract.Yaml.Tag

set_option autoImplicit false

namespace DataContract.Yaml

/-- A node. An alias of a collection that it stands inside of is `enclosing`, with the mark
of the collection. -/
inductive Node where
  | scalar (tag : Tag) (text : String)
  | sequence (mark : Option Nat) (tag : Tag) (items : List Node)
  | mapping (mark : Option Nat) (tag : Tag) (mergeable : Bool) (entries : List (Node × Node))
  | enclosing (mark : Nat)
deriving Inhabited

namespace Node

/-- A scalar that is not written. -/
def empty : Node := .scalar .null ""

/-- Whether a key asks for merging. -/
def isMergeKey : Node → Bool
  | .scalar .merge _ => true
  | _ => false

/-- The mark for a default value is an ordinary text where it is a key. -/
def asKey : Node → Node
  | .scalar .defaultValue text => .scalar .text text
  | node => node

/-- The entries of a mapping. -/
def entries? : Node → Option (List (Node × Node))
  | .mapping _ _ true entries => some entries
  | _ => none

/-- The entries that are merged: of a mapping, or of some mappings, of which the first
comes last so that it prevails. -/
def mergedEntries? : Node → Option (List (Node × Node))
  | .sequence _ _ items => (items.mapM entries?).map fun all => all.reverse.flatten
  | node => node.entries?

/-- A mapping from its written entries. -/
def ofEntries (mark : Option Nat) (tag : Tag) (written : List (Node × Node)) : Node :=
  let own := (written.filter (!·.1.isMergeKey)).map fun (k, v) => (k.asKey, v)
  match (written.filter (·.1.isMergeKey)).mapM (·.2.mergedEntries?) with
  | some merged => .mapping mark tag true (merged.flatten ++ own)
  | none => .mapping mark tag false own

end Node

end DataContract.Yaml
