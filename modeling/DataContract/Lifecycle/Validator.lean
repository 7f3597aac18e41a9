/-
# Validators

A validator holds a compiled schema and remembers the report of its last
validation. `evaluate` reports without remembering. Reading an outcome that is
not there is a fault of use, which no plugin is told about.
-/

import DataContract.Lifecycle.Action
import DataContract.Validation.Engine

set_option autoImplicit false

namespace DataContract

variable [UserCode]

/-- A new validator for a declaration. -/
def newValidator (registry : Nat) (declaration : Value) (strict : Bool) : Action Nat := do
  let (schemaId, schema) ← compileIn registry declaration strict
  let fresh : Validator := ⟨schemaId, schema, registry, none⟩
  let w ← get
  set { w with validators := w.validators ++ [fresh] }
  return w.validators.length

/-- The validator with a number. -/
def validatorAt (id : Nat) : Action Validator := do
  match (← get).validators[id]? with
  | some v => return v
  | none => Action.fail (.unknownName "")

/-- Validates data and reports, without remembering the report. The validator is looked at anew
for each step, as functions that are called meanwhile may reach it. -/
def evaluate (id : Nat) (data : Value) : Action Report := do
  let data ← trigger (← validatorAt id).registry .beforeValidate data
  let (report, _) ← Action.ofVisit ((← validatorAt id).schema.validate data)
  let data ← trigger (← validatorAt id).registry .afterValidate report.data
  return { report with data }

/-- Remembers a report. -/
def remember (id : Nat) (report : Report) : Action Unit :=
  modify fun w =>
    { w with
      validators := w.validators.modify id fun v => { v with last := some report } }

/-- Validates data and remembers the report; gives the verdict. -/
def validate (id : Nat) (data : Value) : Action Bool := do
  let report ← evaluate id data
  remember id report
  return report.valid

/-- The report of the last validation. -/
def requireReport (id : Nat) (reading : Reading) : Action Report := do
  match (← validatorAt id).last with
  | some report => return report
  | none => Action.fail (.usage (.notValidated reading))

/-- The messages of the last validation. -/
def readMessages (id : Nat) : Action (List Value) := do
  let report ← requireReport id .messages
  let _ ← trigger (← validatorAt id).registry .getValidationErrors .null
  return report.messages

/-- The violations of the last validation. -/
def readViolations (id : Nat) : Action (List Violation) := do
  let report ← requireReport id .grouped
  let _ ← trigger (← validatorAt id).registry .getGroupedValidationErrors .null
  return report.violations

/-- The body of the data of the last validation, as it stands now. -/
def readBody (id : Nat) (options : BodyOptions) : Action Entries := do
  let report ← requireReport id .body
  match (← Action.head report.data).entries? with
  | some entries => return (← validatorAt id).schema.project options entries
  | none => Action.fail (.usage .notARecord)

/-- The texts of messages; other messages cannot be joined. -/
def messageTexts : List Value → Except Fault (List String)
  | [] => .ok []
  | .text s :: rest => (messageTexts rest).map (s :: ·)
  | _ => .error .messageNotJoinable

/-- The validator that a value is, or a new strict one for a declaration. -/
def validatorOf (registry : Nat) : Value → Action Nat
  | .validator id _ => return id
  | declaration => newValidator registry declaration true

/-- Validates data with a validator and gives their body, or fails with the messages. -/
def requireBody (id : Nat) (data : Value) (options : BodyOptions) : Action Entries := do
  if ← validate id data then readBody id options
  else
    let messages ← Action.ofFault (messageTexts (← readMessages id))
    Action.fail (.invalid messages)

/-- Validates data in one step, for a declaration or with a validator, and gives their body or
fails with the messages. -/
def validateBody (registry : Nat) (data declaration : Value) (options : BodyOptions) :
    Action Entries := do
  requireBody (← validatorOf registry declaration) data options

end DataContract
