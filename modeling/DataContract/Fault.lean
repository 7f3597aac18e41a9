/-
# Failures of a run

Faulty data is reported, never raised. What stops a run is what a user's function
raises, a use of a value that its sort does not allow, or a number that is out of
range.
-/

set_option autoImplicit false

namespace DataContract

/-- The class of what a user's function raises, by its name. A signal asks for the end of the
whole program, and handlers of failures let it pass. -/
structure FailureKind where
  name : String
  isSignal : Bool := false
deriving DecidableEq, Inhabited

/-- What stops a run. -/
inductive Fault where
  /-- A user's function raised something of its own. -/
  | raised (kind : FailureKind) (text : String)
  /-- Something was written into a value that cannot be written to. -/
  | readOnly
  /-- A list or mapping was used as a key. -/
  | notAKey
  /-- A list was written to beyond its end. -/
  | noSuchIndex
  /-- A function was called with arguments that it does not take. -/
  | badCall
  /-- A pattern for byte strings was searched for in a text. -/
  | patternOfBytes
  /-- A message override is neither a text nor something with elements. -/
  | messageWithoutParts
  /-- The property reference of a message was asked of a value that has no text. -/
  | messageWithoutText
  /-- The property reference of a message was asked of a value whose replacement
  means something else. -/
  | messageNotReplaceable
  /-- Messages that are no texts were joined. -/
  | messageNotJoinable
  /-- A number of a date is out of range. -/
  | dateOutOfRange

/-- Whether a fault is a signal, which handlers of failures let pass. -/
def Fault.isSignal : Fault → Bool
  | .raised kind _ => kind.isSignal
  | _ => false

end DataContract
