/-
# The log

Records that tell what happens during a run. A run shows the records at its level
and above.
-/

import DataContract.CommandLine.Arguments

set_option autoImplicit false

namespace DataContract.CommandLine

/-- The levels of records, the least urgent first. -/
inductive Level where
  | debug
  | info
  | warning
  | error
deriving DecidableEq

/-- The rank of a level. -/
def Level.rank : Level → Nat
  | .debug => 0
  | .info => 1
  | .warning => 2
  | .error => 3

/-- The name of a level. -/
def Level.name : Level → String
  | .debug => "DEBUG"
  | .info => "INFO"
  | .warning => "WARNING"
  | .error => "ERROR"

/-- The parts of the program that write records. -/
inductive Source where
  | program
  | compiler
  | engine
deriving DecidableEq

/-- The name of a source. -/
def Source.name : Source → String
  | .program => "root"
  | .compiler => "schemy.validation.compiler"
  | .engine => "schemy.validation.engine"

/-- A record. -/
structure Record where
  level : Level
  source : Source
  message : String
deriving DecidableEq

/-- The level that the options ask for: of two options the quieter one counts. -/
def Verbosity.level (v : Verbosity) : Level :=
  if v.errorsOnly then .error
  else if v.warningsOnly then .warning
  else if v.verbose then .debug
  else .info

/-- The records that are shown at a level. -/
def shownAt (level : Level) (records : List Record) : List Record :=
  records.filter fun r => level.rank ≤ r.level.rank

end DataContract.CommandLine
