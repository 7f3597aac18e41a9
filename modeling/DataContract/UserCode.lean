/-
# The functions of a user

Custom validators, producers of defaults and plugins are functions of a user, who may
write any. What they do is a parameter of all that follows: a `UserCode` says for the
identity of a function how it acts in each of the three ways in which functions are
called. It may raise anything, and it may do to the store whatever it likes.

An owned list or mapping that a function is given is handed over and handed back, as
only the function can reach it meanwhile. A shared one stays in its cell, which the
function finds in the store.
-/

import DataContract.Fault
import DataContract.Store

set_option autoImplicit false

namespace DataContract

/-- What a custom validator does: what it answers or raises, the mapping as it leaves it, and
the value that it was asked about, if it has moved that from its place in the mapping. -/
structure Judgement where
  answer : Except Fault Value
  record : Value
  moved : Option Value := none

/-- A function of a user, called without arguments, with one, and as a custom validator: with
the key and the value it is asked about, the mapping that holds the value, and the schema. -/
structure Function where
  produce : Store → Except Fault Value × Store
  call : Value → Store → (Except Fault Unit × Value) × Store
  judge : (key v record : Value) → Schema → Store → Judgement × Store

/-- A function that takes no arguments at all, and so fails however it is called. -/
def Function.refusing : Function where
  produce st := (.error .badCall, st)
  call payload st := ((.error .badCall, payload), st)
  judge _ _ record _ st := (⟨.error .badCall, record, none⟩, st)

instance : Inhabited Function := ⟨.refusing⟩

/-- What functions do, by their identities. -/
class UserCode where
  function : Nat → Function

namespace WithoutUserCode

/-- No function does anything. -/
scoped instance : UserCode := ⟨fun _ => .refusing⟩

end WithoutUserCode

end DataContract
