/-
# Values that are read as dates

Days and moments are dates; numbers are milliseconds before or after an epoch,
within a range of a hundred million days; texts are dates in the international
notation or in the notation of mail headers. A text whose numbers are too large
for a calendar is neither: reading it fails.
-/

import DataContract.Calendar.Iso
import DataContract.Calendar.Mail
import DataContract.Fault
import DataContract.Value.Basic

set_option autoImplicit false

namespace DataContract

/-- The greatest distance from the epoch, in milliseconds. -/
def greatestTimestamp : Nat := 8640000000000000

/-- A text without blanks at its ends, and with a `Z` at its end spelled out as
the offset zero. -/
def normaliseZone (cs : List Char) : List Char :=
  let trimmed := Text.trimBlank cs
  match trimmed.getLast? with
  | some 'Z' | some 'z' => trimmed.dropLast ++ ['+', '0', '0', ':', '0', '0']
  | _ => trimmed

/-- Whether a text is a date. -/
def isDateText (s : String) : Except Fault Bool :=
  if s.toList.all Text.isBlank then .ok false
  else if (Iso.read? (String.ofList (normaliseZone s.toList))).isSome then .ok true
  else match Mail.read s with
    | .ok _ => .ok true
    | .error .notADate => .ok false
    | .error .outOfRange => .error .dateOutOfRange

/-- Whether a number of milliseconds is within the range of dates. -/
def Number.isTimestamp : Number → Bool
  | .int n => n.natAbs ≤ greatestTimestamp
  | .float x => x.isFinite && !(Number.int greatestTimestamp).lt (.float x) &&
      !(Number.float x).lt (.int (-greatestTimestamp))

/-- Whether a value is read as a date. -/
def Value.isDate : Value → Except Fault Bool
  | .date _ | .moment _ => .ok true
  | .int n => .ok (Number.int n).isTimestamp
  | .float x => .ok (Number.float x).isTimestamp
  | .text s => isDateText s
  | _ => .ok false

end DataContract
