/-
# Bodies

The body is the record that a caller goes on with after a validation. Undeclared
keys are dropped if the schema tolerates them and they are not asked for; a
strict schema has refused them before. On request the declared keys come first,
in declaration order and under the names of the declaration.
-/

import DataContract.Validation.Engine
import DataContract.Validation.Findings

set_option autoImplicit false

namespace DataContract

/-- Which keys a body keeps and how it orders them. -/
structure BodyOptions where
  includeAll : Bool
  ordered : Bool
deriving DecidableEq

namespace Schema

/-- The entries that a body keeps. -/
def keptEntries (s : Schema) (includeAll : Bool) (entries : Entries) : Entries :=
  if s.flex && !includeAll then entries.filter fun e => s.declares e.1 else entries

/-- Entries with the declared ones first, in the order of the rules. -/
def orderEntries : List Rule → Entries → Entries
  | [], entries => entries
  | r :: rest, entries =>
    match entries.get? r.name with
    | some v => (r.name, v) :: orderEntries rest (entries.erase r.name)
    | none => orderEntries rest entries

/-- The body of a record. -/
def project (s : Schema) (options : BodyOptions) (entries : Entries) : Entries :=
  let kept := s.keptEntries options.includeAll entries
  if options.ordered then orderEntries s.rules kept else kept

end Schema

end DataContract
