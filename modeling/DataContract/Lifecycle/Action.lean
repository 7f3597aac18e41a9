/-
# Actions

What is done with registries and validators. An `Action` may fail, and what it did to
the store before it failed stays done.

Whenever a registry is told about an event, the store takes note of it, whether or not
anybody is registered. Then the attributes of its plugins are called in order, and the
first one that fails ends the telling.
-/

import DataContract.Schema.Document
import DataContract.Validation.Body
import DataContract.Validation.Callable
import DataContract.Validation.Visit

set_option autoImplicit false

namespace DataContract

/-- The ways of reading the outcome of a validator's last run. -/
inductive Reading where
  | messages
  | grouped
  | body
deriving DecidableEq

/-- The name of a reading. -/
def Reading.label : Reading → String
  | .messages => "get_validation_errors"
  | .grouped => "get_grouped_validation_errors"
  | .body => "get_body"

/-- How a validator can be used out of order. -/
inductive UsageFault where
  | notValidated (reading : Reading)
  | notARecord
deriving DecidableEq

/-- The wording of a faulty use. -/
def UsageFault.text : UsageFault → String
  | .notValidated reading =>
    "You need to call .validate() before ." ++ reading.label ++ "()"
  | .notARecord => "Last validated data is not an object"

/-- Why an action fails. A name may stand for nothing, or for something that cannot be
used in the way that is asked for. -/
inductive Failure where
  | fault (f : Fault)
  | declaration (e : SchemaError)
  | usage (u : UsageFault)
  | invalid (messages : List String)
  | unknownEvent (name : String)
  | unknownName (name : String)
  | wrongSort

/-- The wording of an event name that is none. -/
def unknownEventText (name : String) : String :=
  Text.quoted name ++ " is not a valid HookEvent"

/-- The wording of a failed validation: its messages joined. -/
def invalidText (messages : List String) : String :=
  let joined := joinWith "; " messages
  if joined == "" then "Validation failed" else joined

/-- Something that is done with the store and may fail. -/
abbrev Action := ExceptT Failure (StateM Store)

namespace Action

variable {α : Type}

/-- Fails. -/
def fail (f : Failure) : Action α := throw f

/-- Gives a value or fails with a fault. -/
def ofFault : Except Fault α → Action α
  | .ok a => pure a
  | .error f => throw (.fault f)

/-- Gives a value or fails with an error of a declaration. -/
def ofDeclaration : Except SchemaError α → Action α
  | .ok a => pure a
  | .error e => throw (.declaration e)

/-- Lets a visit act on the store, and gives what it found and left. -/
def ofVisit {σ : Type} (visit : Store → Visit σ α) : Action (α × σ) := do
  let v := visit (← get)
  set v.store
  match v.result with
  | .ok a => return (a, v.left)
  | .error f => throw (.fault f)

/-- A value with its shared parts written out. -/
def writtenOut (v : Value) : Action Value := do return (← get).plain v

/-- The entries of a mapping, and of the one in a cell. -/
def head (v : Value) : Action Value := do return (← get).head v

end Action

/-- The plugins of a registry. -/
def registered (registry : Nat) : Action (List Value) := do
  return ((← get).registries[registry]?).getD []

/-- Replaces the plugins of a registry. -/
def setRegistered (registry : Nat) (plugins : List Value) : Action Unit :=
  modify fun w => { w with registries := w.registries.set registry plugins }

/-- A new registry with some plugins, which are told nothing. -/
def newRegistry (plugins : List Value) : Action Nat := do
  let w ← get
  set { w with registries := w.registries ++ [plugins] }
  return w.registries.length

/-- Adds a plugin, and gives the value by which it is registered. -/
def addPlugin (plugin : Plugin) : Action Value := do
  let w ← get
  set { w with plugins := w.plugins ++ [plugin] }
  return .plugin w.plugins.length plugin.name

variable [UserCode]

/-- Calls something with a payload, and gives the payload as that leaves it. -/
def callWith (f : Callable) (payload : Value) : Action Value := do
  let ((outcome, left), st) := f.call payload (← get)
  set st
  match outcome with
  | .ok () => return left
  | .error fault => throw (.fault fault)

/-- Tells one registered value about an event: a plugin by the attribute that it has for it. -/
def tell (event : HookEvent) (payload : Value) : Value → Action Value
  | .plugin id _ => do
    match ((← get).plugins[id]?).bind (·.attributes.lookup event) with
    | some (.callable f) => callWith f payload
    | _ => return payload
  | _ => return payload

/-- Tells what is registered about an event, from a position on. The registry is looked at anew
for each plugin, as one that is told may change it; so the number of plugins that are told is
bounded by `room` alone. -/
def tellFrom (registry : Nat) (event : HookEvent) : (room position : Nat) → Value → Action Value
  | 0, _, payload => return payload
  | room + 1, position, payload => do
    match (← registered registry)[position]? with
    | none => return payload
    | some listener => tellFrom registry event room (position + 1) (← tell event payload listener)

/-- Tells the plugins of a registry about an event, and gives the payload as they
leave it. -/
def trigger (registry : Nat) (event : HookEvent) (payload : Value) : Action Value := do
  modify fun st => { st with told := st.told ++ [⟨st.depth, registry, event, payload⟩] }
  tellFrom registry event (greatestLength + (← registered registry).length) 0 payload

/-- Tells the plugins of a registry about an event that is given by its name. An
unknown name is noticed only if there is a plugin to tell. -/
def triggerNamed (registry : Nat) (name : String) (payload : Value) : Action Value := do
  if (← registered registry).isEmpty then return payload
  else
    match HookEvent.ofName? name with
    | some event => trigger registry event payload
    | none => Action.fail (.unknownEvent name)

/-- Registers one plugin or the items of a list, and tells all of the registry about
the new ones. -/
def extendRegistry (registry : Nat) (plugins : Value) : Action Unit := do
  let added := ((← Action.head plugins).items?).getD [plugins]
  setRegistered registry ((← registered registry) ++ added)
  let _ ← trigger registry .pluginsInitialized (.list added)

/-- Removes all plugins of a registry. -/
def clearRegistry (registry : Nat) : Action Unit := setRegistered registry []

/-- A new identity for a compiled schema, a function or a thing. -/
def newIdentity : Action Nat := do
  let w ← get
  set { w with identities := w.identities + 1 }
  return w.identities

/-- The identity of the compiled schema that a value is or carries. -/
def compiledId? : Value → Action (Option Nat)
  | .schema id _ => return some id
  | .validator id _ => do return ((← get).validators[id]?).map (·.schemaId)
  | _ => return none

/-- The identity of what a declaration is compiled to: a compiled schema keeps its own. -/
def identify (declaration : Value) : Action Nat := do
  match ← compiledId? declaration with
  | some id => return id
  | none => newIdentity

/-- Compiles a declaration and tells a registry before and after. -/
def compileIn (registry : Nat) (declaration : Value) (strict : Bool) : Action (Nat × Schema) := do
  let declaration ← trigger registry .beforeParse declaration
  let schema ← Action.ofDeclaration
    (Declaration.compile (← Action.writtenOut declaration) strict)
  let id ← identify declaration
  let _ ← trigger registry .afterParse (.schema id schema)
  return (id, schema)

end DataContract
