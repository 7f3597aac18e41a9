/-
# Calling functions

A function is called in three ways: as the producer of a default, without arguments,
as a custom validator, with a value, the mapping that holds it and the schema, and as
the attribute of a plugin, with one argument. What functions of a user do is a
parameter. Type tokens produce an empty value of their type, take some arguments and
are no validators.
-/

import DataContract.UserCode
import DataContract.Validation.Home
import DataContract.Value.Category

set_option autoImplicit false

namespace DataContract

/-- The empty value of a type; not every type has one. -/
def TypeToken.produce : TypeToken → Option Value
  | .text => some (.text "")
  | .integer => some (.int 0)
  | .float => some (.float Binary64.zero)
  | .boolean => some (.bool false)
  | .mapping => some (.object [])
  | .list => some (.list [])
  | .tuple => some (.tuple [])
  | .set => some (.set [])
  | .bytes => some (.bytes [])
  | .object => some (.thing 0 "object")
  | .nothing => some .null
  | .complex => some (.thing 0 "complex")
  | .callable | .callableInterface | .date | .moment => none

/-- The least number that is too large for a field of a date, whatever its sign. -/
def dateFieldBound : Nat := 2147483648

/-- The failure of a type that is called as a custom validator. A type of dates reads the
value as its first field before it finds the others unfit. -/
def TypeToken.refusal (t : TypeToken) : Value → Fault
  | .int n =>
    let outside := !(-(dateFieldBound : Int) ≤ n && n < dateFieldBound)
    if (t == .date || t == .moment) && outside then .dateOutOfRange else .badCall
  | _ => .badCall

/-- Whether a type can be made from a value. -/
def TypeToken.acceptsArgument (v : Value) : TypeToken → Bool
  | .text | .boolean | .callable => true
  | .integer | .float | .complex => v.numeric?.isSome
  | .list | .tuple => v.elements?.isSome
  | .set => v.elements?.any allKeys
  | .mapping => v.isMapping
  | .bytes => v.elements?.isSome
  | .callableInterface | .date | .moment | .object | .nothing => false

namespace Callable

variable [UserCode]

/-- Calls a producer of defaults. -/
def produce : Callable → Store → Except Fault Value × Store
  | .token t, st =>
    match t.produce with
    | some v => (.ok v, st)
    | none => (.error .badCall, st)
  | .function id _, st => st.within (UserCode.function id).produce

/-- Calls something with one argument, which it may change. -/
def call (f : Callable) (payload : Value) (st : Store) : (Except Fault Unit × Value) × Store :=
  match f with
  | .token t =>
    ((if t.acceptsArgument (st.head payload) then .ok () else .error .badCall, payload), st)
  | .function id _ =>
    let ((outcome, left), st) := st.within ((UserCode.function id).call payload)
    ((outcome, payload.leftAs left), st)

/-- Calls a custom validator about the value under a key of a mapping. -/
def judge (f : Callable) (key v record : Value) (s : Schema) (st : Store) : Judgement × Store :=
  match f with
  | .token t => (⟨.error (t.refusal v), record, none⟩, st)
  | .function id _ => st.within ((UserCode.function id).judge key v record s)

end Callable

end DataContract
