/-
# Schemas whose messages can be reported

A rule may replace the messages of the library by one of its own, which need not be a
text. A value without elements cannot be reported at all. One with elements that are
no texts can, but not from inside a nested record, whose messages are folded and then
need a text to put the key into. A schema speaks if no message of its rules is of
such a sort where it stands.

Two more things in a rule can stop a run: a pattern for byte strings, which cannot be
searched for in a text, and a producer of defaults that sends a signal. Where there is
neither and the schema speaks, only a date whose numbers are out of range stops a run
over data, whatever the data are and wherever they stand.
-/

import DataContract.Proofs.Schema.Induction
import DataContract.Proofs.Validation.Frame
import DataContract.Proofs.Validation.Checks

set_option autoImplicit false

namespace DataContract

/-- Whether a value is a text. -/
def Value.isText : Value → Bool
  | .text _ => true
  | _ => false

/-- Whether a rule's own message can be reported; `inner` says that it is from a rule
of a nested record. A message that counts as false is not used. -/
def Value.speaks (m : Value) (inner : Bool) : Bool :=
  !m.truthy ||
    match m.elements? with
    | none => false
    | some parts => !inner || parts.all Value.isText

mutual

/-- Whether all messages of a schema, nested or not, can be reported. -/
def Schema.speaks : Schema → Bool → Bool
  | ⟨rules, _⟩, inner => rulesSpeak rules inner
  termination_by structural s => s

/-- Whether all messages of some rules can be reported. -/
def rulesSpeak : List Rule → Bool → Bool
  | [], _ => true
  | r :: rest, inner => r.speaks inner && rulesSpeak rest inner
  termination_by structural rules => rules

/-- Whether the messages of a rule, and of what its type holds, can be reported. -/
def Rule.speaks (r : Rule) (inner : Bool) : Bool :=
  match r with
  | { type, message, .. } => message.all (·.speaks inner) && type.speaks
  termination_by structural r

/-- Whether the messages of the schemas in a type can be reported. -/
def TypeSpec.speaks : TypeSpec → Bool
  | .scalar _ => true
  | .nested s => s.speaks true
  | .array none => true
  | .array (some item) => item.speaksAsItem
  termination_by structural t => t

/-- The same for the type of an item, of whose messages only the number counts. -/
def TypeSpec.speaksAsItem : TypeSpec → Bool
  | .scalar _ => true
  | .nested s => s.speaks false
  | .array none => true
  | .array (some item) => item.speaksAsItem
  termination_by structural t => t

end

theorem rulesSpeak_eq (rules : List Rule) (inner : Bool) :
    rulesSpeak rules inner =
      rules.all fun r => r.message.all (·.speaks inner) && r.type.speaks := by
  induction rules with
  | nil => rfl
  | cons r rest ih =>
      obtain ⟨name, type, required, custom, pattern, min, max, choices, default, message⟩ := r
      rw [rulesSpeak, Rule.speaks, ih, List.all_cons]

/-- A schema speaks if the messages of its rules do, and what the types of its rules hold. -/
theorem Schema.speaks_iff (s : Schema) (inner : Bool) :
    s.speaks inner = true ↔
      ∀ r ∈ s.rules, r.message.all (·.speaks inner) = true ∧ r.type.speaks = true := by
  obtain ⟨rules, flex⟩ := s
  simp only [Schema.speaks, rulesSpeak_eq, List.all_eq_true, Bool.and_eq_true]

/-- A rule without a custom validator whose message nobody else holds. -/
structure Rule.Bare (r : Rule) : Prop where
  custom : r.custom = none
  message : ∀ cell, r.message ≠ some (.shared cell)

/-- A schema of bare rules. -/
def Schema.Bare (s : Schema) : Prop := ∀ r ∈ s.rules, r.Bare

/-- A rule for texts that has no pattern for byte strings. -/
def Rule.Searchable (r : Rule) : Prop :=
  r.type = .scalar .text → r.hasBytesPattern = false

/-- A schema of searchable rules. -/
def Schema.Searchable (s : Schema) : Prop := ∀ r ∈ s.rules, r.Searchable

/-! ## Outcomes -/

/-- An outcome that is as it should be, or the failure of a date. -/
def Settles {α : Type} (post : α → Prop) : Except Fault α → Prop
  | .error f => f = .dateOutOfRange
  | .ok a => post a

namespace Settles

variable {α β : Type} {post : α → Prop} {post' : β → Prop} {x : Except Fault α}

theorem mono (settles : Settles post x) {weaker : α → Prop} (weaken : ∀ a, post a → weaker a) :
    Settles weaker x := by
  cases x with
  | error f => exact settles
  | ok a => exact weaken a settles

theorem bind (settles : Settles post x) {next : α → Except Fault β}
    (further : ∀ a, post a → Settles post' (next a)) : Settles post' (x.bind next) := by
  cases x with
  | error f => exact settles
  | ok a => exact further a settles

theorem map (settles : Settles post x) {f : α → β} (sends : ∀ a, post a → post' (f a)) :
    Settles post' (x.map f) := by
  cases x with
  | error f => exact settles
  | ok a => exact sends a settles

/-- Elements that each settle do so together. -/
theorem mapM {items : List α} {f : α → Except Fault β} (each : ∀ a ∈ items, Settles post' (f a)) :
    Settles (fun bs : List β => ∀ b ∈ bs, post' b) (items.mapM f) := by
  induction items with
  | nil =>
      intro _ mem
      cases mem
  | cons a rest ih =>
      rw [List.mapM_cons]
      refine (each a List.mem_cons_self).bind fun b settled => ?_
      refine (ih fun x mem => each x (List.mem_cons_of_mem a mem)).bind fun bs all => ?_
      exact List.forall_mem_cons.mpr ⟨settled, all⟩

/-- A visit that settles goes on with one that does. -/
theorem andThen {σ : Type} {first : Visit σ α} {next : α → σ → Store → Visit σ β}
    (head : Settles post first.result)
    (further : ∀ a x st, post a → Settles post' (next a x st).result) :
    Settles post' (first.andThen next).result := by
  rw [Visit.andThen]
  cases outcome : first.result with
  | error f =>
      rw [outcome] at head
      exact head
  | ok a =>
      rw [outcome] at head
      exact further a first.left first.store head

/-- Parts that settle one after the other do so together. -/
theorem append {σ : Type} {post : β → Prop} {first : Visit σ (List β)}
    {next : σ → Store → Visit σ (List β)}
    (head : Settles (fun found => ∀ b ∈ found, post b) first.result)
    (further : ∀ x st, Settles (fun found => ∀ b ∈ found, post b) (next x st).result) :
    Settles (fun found => ∀ b ∈ found, post b)
      (first.andThen fun found x st => (next x st).map (found ++ ·)).result :=
  head.andThen fun _ x st own => (further x st).map fun _ all =>
    List.forall_mem_append.mpr ⟨own, all⟩

end Settles

/-- A message of which all parts are texts. -/
def Message.Spoken : Message → Prop
  | .text _ => True
  | .folded parts => ∀ p ∈ parts, p.isText = true

theorem isText_of_mem_flattenMessages {violations : List Violation}
    (spoken : ∀ v ∈ violations, v.message.Spoken) :
    ∀ m ∈ flattenMessages violations, m.isText = true := by
  intro m mem
  obtain ⟨v, inViolations, part⟩ := List.mem_flatMap.mp mem
  have own := spoken v inViolations
  rw [Violation.messages] at part
  cases message : v.message with
  | text s =>
      rw [message, List.mem_singleton] at part
      rw [part, Value.isText]
  | folded parts =>
      rw [message] at part own
      exact own m part

/-- Violations whose messages can be folded, if they are those of a nested record. -/
def Foldable (inner : Bool) (found : List Violation) : Prop :=
  ∀ v ∈ found, inner = true → v.message.Spoken

/-- Messages that are texts fold into texts. -/
theorem foldMessages_settles (key : Value) {messages : List Value}
    (texts : ∀ m ∈ messages, m.isText = true) :
    Settles Message.Spoken (foldMessages key messages) := by
  have each : ∀ m ∈ messages, Settles (·.isText = true) (prefixPart key m) := by
    intro m mem
    have isText := texts m mem
    cases m with
    | text s => rfl
    | _ => cases isText
  exact (Settles.mapM each).map fun _ all => all

namespace Rule

variable {r : Rule} {inner : Bool}

/-- A message that a rule reports can be folded where that is needed. -/
theorem report_settles (bare : r.Bare) (speaks : r.message.all (·.speaks inner) = true)
    (st : Store) (message : String) :
    Settles (fun v : Violation => inner = true → v.message.Spoken) (r.report st message) := by
  rw [report]
  cases own : r.message with
  | none => exact fun _ => trivial
  | some m =>
      have head : st.head m = m := by
        cases m with
        | shared cell => exact absurd own (bare.message cell)
        | _ => rfl
      rw [own, Option.all_some, Value.speaks] at speaks
      simp only [Option.map_some, head]
      cases truthy : m.truthy with
      | false => exact fun _ => trivial
      | true =>
          cases elements : m.elements? with
          | none => simp [truthy, elements] at speaks
          | some parts =>
              simp only [truthy, elements, Bool.not_true, Bool.false_or, Bool.or_eq_true,
                Bool.not_eq_true', List.all_eq_true] at speaks
              rw [if_pos rfl, Message.ofValue.eq_def]
              split
              · exact fun _ => trivial
              · rw [elements]
                intro isInner
                exact speaks.resolve_left (by simp [isInner])

/-- Messages of which the folded ones are spoken are reported so that they can be folded
where that is needed. -/
theorem reportAll_settles (bare : r.Bare) (speaks : r.message.all (·.speaks inner) = true)
    (st : Store) {messages : List Message} (spoken : ∀ m ∈ messages, m.Spoken) :
    Settles (Foldable inner) (r.reportAll st messages) := by
  refine Settles.mapM fun m mem => ?_
  cases m with
  | text s => exact report_settles bare speaks st s
  | folded parts => exact fun _ => spoken _ mem

end Rule

/-! ## Items -/

namespace Walk

variable {walk : Walk Bool}

/-- Items are asked without failing if each of them can be. -/
theorem allItems_settles (each : ∀ v st, Settles (fun _ => True) (walk v st).result)
    (items : List Value) (st : Store) :
    Settles (fun _ => True) (allItems walk items st).result := by
  induction items generalizing st with
  | nil => trivial
  | cons v rest ih =>
      rw [allItems]
      split
      · exact ih _
      · exact each v st

theorem allInCell_settles (each : ∀ v st, Settles (fun _ => True) (walk v st).result)
    (cell room position : Nat) (st : Store) :
    Settles (fun _ => True) (allInCell walk cell room position st).result := by
  induction room generalizing position st with
  | zero => trivial
  | succ room ih =>
      rw [allInCell]
      split
      · trivial
      next v found =>
        refine Settles.andThen (each v st) fun fits _ st _ => ?_
        cases fits with
        | false => trivial
        | true => exact ih (position + 1) st

theorem ofItems_settles (each : ∀ v st, Settles (fun _ => True) (walk v st).result) (v : Value)
    (st : Store) : Settles (fun _ => True) (ofItems walk v st).result := by
  cases v with
  | list items | tuple items => exact allItems_settles each items st
  | shared cell =>
      obtain ⟨room, -, asked⟩ := ofItems_room walk cell st
      rw [asked]
      split
      · exact allInCell_settles each cell room 0 st
      · trivial
  | _ => trivial

end Walk

/-! ## Rules, schemas and types -/

variable [UserCode]

/-- The producer of a rule, if it has one, sends no signal when it is called in a store. -/
def Rule.QuietIn (st : Store) (r : Rule) : Prop :=
  ∀ f fault, r.default = some (.callable f) → (f.produce st).1 = .error fault →
    fault.isSignal = false

/-- A schema of rules whose producers send no signal in a store. -/
def Schema.QuietIn (st : Store) (s : Schema) : Prop := ∀ r ∈ s.rules, r.QuietIn st

/-- A rule without anything but its message that could stop a run. -/
structure Rule.Harmless (r : Rule) : Prop where
  searchable : r.Searchable
  quiet : ∀ st, r.QuietIn st

/-- A schema of harmless rules. -/
def Schema.Harmless (s : Schema) : Prop := ∀ r ∈ s.rules, r.Harmless

/-- Only a signal keeps a rule from having a default or none. -/
theorem Rule.isSignal_of_defaultValue {r : Rule} {st : Store} {fault : Fault}
    (failed : (r.defaultValue st).1 = .error fault) : fault.isSignal = true := by
  rw [Rule.defaultValue] at failed
  split at failed
  next f isProducer =>
    generalize f.produce st = outcome at failed
    obtain ⟨made, left⟩ := outcome
    cases made with
    | ok v => cases failed
    | error own =>
        cases signal : own.isSignal with
        | false => simp [signal] at failed
        | true =>
            simp only [signal, if_true, Except.error.injEq] at failed
            rw [← failed, signal]
  all_goals cases failed

/-- A producer sends no signal in a store exactly if its rule then has a default or none. -/
theorem Rule.quietIn_iff (st : Store) (r : Rule) :
    r.QuietIn st ↔ ∃ v, (r.defaultValue st).1 = .ok v := by
  rw [QuietIn, Rule.defaultValue]
  split
  next f isProducer =>
    have only (g : Callable) : some (Value.callable f) = some (.callable g) ↔ f = g := by simp
    simp only [isProducer, only, forall_eq', forall_comm (α := Fault)]
    obtain ⟨made, left⟩ := f.produce st
    cases made with
    | ok v => simp
    | error fault => cases signal : fault.isSignal <;> simp [signal]
  · simp_all
  · simp_all
  · simp_all

/-- If the check of a rule's type settles, applying the rule does. -/
theorem Rule.walk_settles_of_check {r : Rule} {inner : Bool} (bare : r.Bare)
    (harmless : r.Harmless) (speaks : r.message.all (·.speaks inner) = true)
    (checked : ∀ v st, Settles (fun found : List Message => ∀ m ∈ found, m.Spoken)
      (r.type.check r r.name v st).result)
    (s : Schema) (home : Home) (entries : Entries) (st : Store) :
    Settles (Foldable inner) (r.walk s home entries st).result := by
  have filled : Settles (fun _ => True) (r.fill home entries st).result := by
    rw [Rule.fill]
    split
    · obtain ⟨v, outcome⟩ := (r.quietIn_iff st).mp (harmless.quiet st)
      generalize r.defaultValue st = made at outcome
      obtain ⟨result, left⟩ := made
      cases outcome
      cases v <;> trivial
    · trivial
  rw [walk_eq]
  refine filled.andThen fun _ entries st _ => ?_
  split
  · cases r.required with
    | false => exact List.forall_mem_nil _
    | true =>
        refine (report_settles bare speaks _ _).map fun v spoken => ?_
        exact List.forall_mem_singleton.mpr spoken
  next v found =>
    simp only [judgeCustom, bare.custom, Visit.andThen_done]
    rw [Visit.map_nil_append]
    exact (checked v st).bind fun found spoken => reportAll_settles bare speaks _ spoken

/-- If each of some rules settles, they do so in order, and so does their schema. -/
theorem Schema.walk_settles_of_each {s : Schema} {inner : Bool}
    (each : ∀ r ∈ s.rules, ∀ home entries st,
      Settles (Foldable inner) (r.walk s home entries st).result)
    (v : Value) (st : Store) : Settles (Foldable inner) (s.walk v st).result := by
  have inOrder (rules : List Rule)
      (each : ∀ r ∈ rules, ∀ home entries st,
        Settles (Foldable inner) (r.walk s home entries st).result)
      (home : Home) (entries : Entries) (st : Store) :
      Settles (Foldable inner) (walkRules rules s home entries st).result := by
    induction rules generalizing entries st with
    | nil => exact List.forall_mem_nil _
    | cons r rest ih =>
        rw [List.forall_mem_cons] at each
        exact (each.1 home entries st).append (ih each.2)
  have withKeys (home : Home) (entries : Entries) (st : Store) :
      Settles (Foldable inner) (s.walkEntries home entries st).result := by
    rw [walkEntries_result]
    refine (inOrder s.rules each home entries st).map fun found spoken => ?_
    refine List.forall_mem_append.mpr ⟨fun v mem _ => ?_, spoken⟩
    rw [undeclared] at mem
    split at mem
    · cases mem
    · obtain ⟨key, -, rfl⟩ := List.mem_map.mp mem
      trivial
  rw [walk_eq, Walk.ofEntries]
  split
  · exact withKeys _ _ st
  · exact List.forall_mem_singleton.mpr fun _ => trivial

/-- A run against a schema that speaks settles on violations, which can be folded if the
schema may stand inside another; the check of a type settles on messages that can be folded,
and asking whether a type takes a value settles. -/
theorem Schema.settles :
    (∀ s : Schema, s.Throughout Schema.Bare → s.Throughout Schema.Harmless →
      ∀ inner, s.speaks inner = true → ∀ v st, Settles (Foldable inner) (s.walk v st).result) ∧
    ∀ t : TypeSpec, t.Throughout Schema.Bare → t.Throughout Schema.Harmless →
      (t.speaks = true → ∀ r : Rule, (t = .scalar .text → r.hasBytesPattern = false) →
        ∀ key v st, Settles (fun found : List Message => ∀ m ∈ found, m.Spoken)
          (t.check r key v st).result) ∧
      (t.speaksAsItem = true → ∀ v st, Settles (fun _ => True) (t.takes v st).result) := by
  have texts (found : List String) : ∀ m ∈ found.map Message.text, m.Spoken := by
    intro m mem
    obtain ⟨s, -, rfl⟩ := List.mem_map.mp mem
    trivial
  have one (s : String) : ∀ m ∈ [Message.text s], m.Spoken := texts [s]
  refine Schema.induction ⟨?schema, ?scalar, ?nested, ?untyped, ?array⟩
  case schema =>
    intro s below bare harmless inner speaks v st
    rw [Schema.throughout_iff] at bare harmless
    rw [Schema.speaks_iff] at speaks
    refine Schema.walk_settles_of_each (fun r mem home entries st => ?_) v st
    apply Rule.walk_settles_of_check (bare.1 r mem) (harmless.1 r mem) (speaks r mem).1
    exact (below r mem (bare.2 r mem) (harmless.2 r mem)).1 (speaks r mem).2 r
      (harmless.1 r mem).searchable r.name
  case scalar =>
    intro kind _ _
    refine ⟨fun _ r searchable key v st => ?_, fun _ v st => ?_⟩
    · rw [TypeSpec.check]
      dsimp only [Visit.ofExcept]
      cases failures : r.scalarFailures key kind (st.head v) with
      | error f =>
          rcases Rule.scalarFailures_error r key failures with isDate | ⟨rfl, bytes, -⟩
          · exact isDate
          · rw [searchable rfl] at bytes
            cases bytes
      | ok found => exact texts found
    · rw [TypeSpec.takes]
      dsimp only [Visit.ofExcept]
      cases fits : kind.fits (st.head v) with
      | error f => exact Scalar.fits_error fits
      | ok b => trivial
  case nested =>
    intro s below bare harmless
    refine ⟨fun speaks r _ key v st => ?_, fun speaks v st => ?_⟩
    · rw [TypeSpec.check]
      split
      · exact one _
      · -- What is found below is folded, so it has to consist of texts.
        refine (below bare harmless true speaks v st).bind fun found spoken => ?_
        split
        · exact List.forall_mem_nil _
        · refine (foldMessages_settles key ?_).map fun m own => List.forall_mem_singleton.mpr own
          exact isText_of_mem_flattenMessages fun v mem => spoken v mem rfl
    · rw [TypeSpec.takes]
      exact (below bare harmless false speaks v st).map fun _ _ => trivial
  case untyped =>
    intro _ _
    refine ⟨fun _ r _ key v st => ?_, fun _ v st => ?_⟩
    · rw [TypeSpec.check]
      split
      · exact one _
      · exact texts _
    · rw [TypeSpec.takes]
      trivial
  case array =>
    intro item below bare harmless
    have asked (speaks : item.speaksAsItem = true) :=
      Walk.ofItems_settles ((below bare harmless).2 speaks)
    refine ⟨fun speaks r _ key v st => ?_, fun speaks v st => ?_⟩
    · rw [TypeSpec.check]
      split
      · exact one _
      · refine (asked speaks v st).map fun all _ => List.forall_mem_append.mpr ⟨texts _, ?_⟩
        cases all with
        | false => exact one _
        | true => exact List.forall_mem_nil _
    · rw [TypeSpec.takes]
      exact asked speaks v st

end DataContract
