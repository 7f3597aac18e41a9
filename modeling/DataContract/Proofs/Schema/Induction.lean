/-
# Induction over schemas

A schema holds rules, a rule has a type, and a type may hold a schema or an item type.
What is proved of every schema is therefore proved together with something about every
type: a schema may use it of the types of its rules, and a type of what it holds.

Conditions that are asked of a schema and of every schema below it have the same shape.
-/

import DataContract.Value.Basic

set_option autoImplicit false

namespace DataContract

/-- What is said of schemas passes to types and back: to a schema from the types of its rules,
and to a type from what it holds. -/
structure Schema.Passes (S : Schema → Prop) (T : TypeSpec → Prop) : Prop where
  schema : ∀ s : Schema, (∀ r ∈ s.rules, T r.type) → S s
  scalar : ∀ kind, T (.scalar kind)
  nested : ∀ s, S s → T (.nested s)
  untyped : T (.array none)
  array : ∀ item, T item → T (.array (some item))

section

variable {S : Schema → Prop} {T : TypeSpec → Prop}

mutual

private theorem Schema.Passes.ofSchema (passes : Schema.Passes S T) (s : Schema) : S s := by
  obtain ⟨rules, flex⟩ := s
  exact passes.schema ⟨rules, flex⟩ (passes.ofRules rules)
  termination_by structural s

private theorem Schema.Passes.ofRules (passes : Schema.Passes S T) (rules : List Rule) :
    ∀ r ∈ rules, T r.type := by
  cases rules with
  | nil => exact fun _ mem => absurd mem List.not_mem_nil
  | cons r rest =>
      have head := passes.ofRule r
      have tail := passes.ofRules rest
      exact List.forall_mem_cons.mpr ⟨head, tail⟩
  termination_by structural rules

private theorem Schema.Passes.ofRule (passes : Schema.Passes S T) (r : Rule) : T r.type := by
  obtain ⟨name, type, required, custom, pattern, min, max, choices, default, message⟩ := r
  exact passes.ofType type
  termination_by structural r

private theorem Schema.Passes.ofType (passes : Schema.Passes S T) (t : TypeSpec) : T t := by
  cases t with
  | scalar kind => exact passes.scalar kind
  | nested s => exact passes.nested s (passes.ofSchema s)
  | array item =>
      cases item with
      | none => exact passes.untyped
      | some item => exact passes.array item (passes.ofType item)
  termination_by structural t

end

/-- What passes between schemas and types holds of all of them. -/
theorem Schema.induction (passes : Schema.Passes S T) : (∀ s, S s) ∧ ∀ t, T t :=
  ⟨passes.ofSchema, passes.ofType⟩

end

mutual

/-- A condition that holds of a schema and of every schema below it. -/
def Schema.Throughout (condition : Schema → Prop) : Schema → Prop
  | ⟨rules, flex⟩ => condition ⟨rules, flex⟩ ∧ RulesThroughout condition rules
  termination_by structural s => s

/-- A condition that holds of every schema below some rules. -/
def RulesThroughout (condition : Schema → Prop) : List Rule → Prop
  | [] => True
  | r :: rest => r.Throughout condition ∧ RulesThroughout condition rest
  termination_by structural rules => rules

/-- A condition that holds of every schema below a rule. -/
def Rule.Throughout (condition : Schema → Prop) (r : Rule) : Prop :=
  match r with
  | { type, .. } => type.Throughout condition
  termination_by structural r

/-- A condition that holds of every schema in a type. -/
def TypeSpec.Throughout (condition : Schema → Prop) : TypeSpec → Prop
  | .scalar _ => True
  | .nested s => s.Throughout condition
  | .array none => True
  | .array (some item) => item.Throughout condition
  termination_by structural t => t

end

theorem rulesThroughout_iff {condition : Schema → Prop} (rules : List Rule) :
    RulesThroughout condition rules ↔ ∀ r ∈ rules, r.type.Throughout condition := by
  induction rules with
  | nil => simp [RulesThroughout]
  | cons r rest ih =>
      obtain ⟨name, type, required, custom, pattern, min, max, choices, default, message⟩ := r
      rw [RulesThroughout, Rule.Throughout, ih, List.forall_mem_cons]

/-- A condition that holds throughout a schema holds of it and below its rules. -/
theorem Schema.throughout_iff {condition : Schema → Prop} (s : Schema) :
    s.Throughout condition ↔
      condition s ∧ ∀ r ∈ s.rules, r.type.Throughout condition := by
  obtain ⟨rules, flex⟩ := s
  rw [Schema.Throughout, rulesThroughout_iff]

/-- What follows from two conditions holds throughout if both do. -/
theorem Schema.throughout_and_then {a b c : Schema → Prop} (follows : ∀ s, a s → b s → c s) :
    (∀ s : Schema, s.Throughout a → s.Throughout b → s.Throughout c) ∧
    ∀ t : TypeSpec, t.Throughout a → t.Throughout b → t.Throughout c := by
  refine Schema.induction ⟨?schema, ?scalar, ?nested, ?untyped, ?array⟩
  case schema =>
    intro s below first second
    rw [Schema.throughout_iff] at first second ⊢
    exact ⟨follows s first.1 second.1, fun r mem => below r mem (first.2 r mem) (second.2 r mem)⟩
  case scalar => exact fun _ _ _ => trivial
  case nested => exact fun s below first second => below first second
  case untyped => exact fun _ _ => trivial
  case array => exact fun item below first second => below first second

theorem Schema.Throughout.and_then {a b c : Schema → Prop} (follows : ∀ s, a s → b s → c s)
    (s : Schema) : s.Throughout a → s.Throughout b → s.Throughout c :=
  (Schema.throughout_and_then follows).1 s

/-- A condition that follows from one that holds throughout does so too. -/
theorem Schema.Throughout.imp {a b : Schema → Prop} (follows : ∀ s, a s → b s) {s : Schema}
    (holds : s.Throughout a) : s.Throughout b :=
  Schema.Throughout.and_then (fun s first _ => follows s first) s holds holds

theorem TypeSpec.Throughout.imp {a b : Schema → Prop} (follows : ∀ s, a s → b s) {t : TypeSpec}
    (holds : t.Throughout a) : t.Throughout b :=
  (Schema.throughout_and_then fun s first _ => follows s first).2 t holds holds

end DataContract
