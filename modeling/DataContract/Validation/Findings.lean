/-
# Findings and reports

`Findings` collects violations in the order in which they are recorded. A
`Report` is the outcome of a validation: the violations and the data as the run
has left it. It is valid exactly when there is no violation, so the verdict is
not a field of its own; `Report.ofParts` refuses a verdict that says otherwise.
-/

import DataContract.Validation.Violation

set_option autoImplicit false

namespace DataContract

/-- Violations in the order in which they were recorded. -/
structure Findings where
  violations : List Violation

namespace Findings

/-- Findings without violations. -/
def empty : Findings := ⟨[]⟩

/-- Records a message for a key; a message that is no text is folded. -/
def add (f : Findings) (key message : Value) : Except Fault Findings :=
  (Message.ofValue message).map fun m => ⟨f.violations ++ [⟨key, m⟩]⟩

/-- Records some violations. -/
def extend (f : Findings) (more : List Violation) : Findings := ⟨f.violations ++ more⟩

/-- The messages in order. -/
def messages (f : Findings) : List Value := flattenMessages f.violations

/-- The keys in order. -/
def keys (f : Findings) : List Value := f.violations.map (·.key)

/-- Whether there is a violation. -/
def any (f : Findings) : Bool := !f.violations.isEmpty

end Findings

/-- The outcome of validating one value. -/
structure Report where
  violations : List Violation
  data : Value

/-- Why a verdict does not agree with the violations. -/
inductive VerdictFault where
  | validWithViolations
  | invalidWithoutViolations
deriving DecidableEq

/-- The wording of a faulty verdict. -/
def VerdictFault.text : VerdictFault → String
  | .validWithViolations => "valid=True requires no errors"
  | .invalidWithoutViolations => "valid=False requires at least one error"

namespace Report

/-- Whether no violation was found. -/
def valid (r : Report) : Bool := r.violations.isEmpty

/-- The messages of the violations in order. -/
def messages (r : Report) : List Value := flattenMessages r.violations

/-- The report of a verdict and violations, if the two agree. -/
def ofParts (verdict : Bool) (violations : List Violation) (data : Value) :
    Except VerdictFault Report :=
  if verdict && !violations.isEmpty then .error .validWithViolations
  else if !verdict && violations.isEmpty then .error .invalidWithoutViolations
  else .ok ⟨violations, data⟩

end Report

end DataContract
