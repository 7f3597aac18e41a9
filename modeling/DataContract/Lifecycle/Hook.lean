/-
# Hooks and plugins

Plugins are told about the stages of compiling and validating: a plugin may have an
attribute for each of the events, which is called with the payload of the event. What
is registered and has no such attribute is told nothing.
-/

import DataContract.Value.Basic

set_option autoImplicit false

namespace DataContract

/-- The events that plugins are told about. -/
inductive HookEvent where
  | pluginsInitialized
  | beforeParse
  | afterParse
  | beforeValidate
  | afterValidate
  | getValidationErrors
  | getGroupedValidationErrors
deriving DecidableEq, Inhabited

/-- The name of an event. -/
def HookEvent.name : HookEvent → String
  | .pluginsInitialized => "plugins_initialized"
  | .beforeParse => "before_parse"
  | .afterParse => "after_parse"
  | .beforeValidate => "before_validate"
  | .afterValidate => "after_validate"
  | .getValidationErrors => "get_validation_errors"
  | .getGroupedValidationErrors => "get_grouped_validation_errors"

/-- All events. -/
def HookEvent.all : List HookEvent :=
  [.pluginsInitialized, .beforeParse, .afterParse, .beforeValidate, .afterValidate,
    .getValidationErrors, .getGroupedValidationErrors]

/-- The event with a given name. -/
def HookEvent.ofName? (name : String) : Option HookEvent := all.find? (·.name == name)

/-- A plugin: its name, and the attributes that it has under names of events. It is told about
an event by a call of the attribute, if that can be called. -/
structure Plugin where
  name : String
  attributes : List (HookEvent × Value)

end DataContract
