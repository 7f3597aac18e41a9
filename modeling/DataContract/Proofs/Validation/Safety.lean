/-
# Data that stop a run

A schema with a message that cannot be reported where it stands does not speak, and
then some data stop a run: every property has a value of the wrong type, except those
on the way to the rule with the message. The same data lead to a rule with a pattern
that cannot be searched for in a text, where they hold a text, and to a rule whose
producer sends a signal, where they hold nothing. Together with what is known of schemas
that speak and are harmless, this says which schemas are safe for all data.
-/

import DataContract.Proofs.Schema.Compiled
import DataContract.Proofs.Validation.Speech
import DataContract.Validation.Findings

set_option autoImplicit false

namespace DataContract

/-- A value that a type does not take, whatever it holds. -/
def TypeSpec.misfit : TypeSpec → Value
  | .scalar .boolean => .int 0
  | _ => .bool false

theorem TypeSpec.misfit_ne_null (t : TypeSpec) : t.misfit ≠ .null := by
  rw [misfit.eq_def]
  split <;> simp

/-! ## Outcomes that do not settle -/

/-- An outcome that is no failure of a date. -/
def Undated {α : Type} (x : Except Fault α) : Prop := ∀ f, x = .error f → f ≠ .dateOutOfRange

theorem Undated.map {α β : Type} {x : Except Fault α} (undated : Undated x) (f : α → β) :
    Undated (x.map f) := by
  cases x with
  | error g =>
      intro f failed
      obtain rfl := Except.error.inj failed
      exact undated g rfl
  | ok a =>
      intro _ failed
      cases failed

theorem Undated.bind {α β : Type} {x : Except Fault α} {next : α → Except Fault β}
    (undated : Undated x) (further : ∀ a, Undated (next a)) : Undated (x.bind next) := by
  cases x with
  | error g =>
      intro f failed
      obtain rfl := Except.error.inj failed
      exact undated g rfl
  | ok a => exact further a

theorem settles_map_iff {α β : Type} {post : β → Prop} {f : α → β} {x : Except Fault α} :
    Settles post (x.map f) ↔ Settles (fun a => post (f a)) x := by
  cases x <;> rfl

section Sequence

variable {σ β : Type} {first : Visit σ (List β)} {next : σ → Store → Visit σ (List β)}
  {post : β → Prop}

theorem undated_append (head : Undated first.result)
    (further : Undated (next first.left first.store).result) :
    Undated (first.andThen fun found x st => (next x st).map (found ++ ·)).result := by
  rw [Visit.append_result]
  exact head.bind fun found => further.map (found ++ ·)

/-- What the first part does not settle, no second part settles unless a date fails. -/
theorem not_settles_append_of_first
    (fails : ¬ Settles (fun found => ∀ b ∈ found, post b) first.result)
    (further : Undated (next first.left first.store).result) :
    ¬ Settles (fun found => ∀ b ∈ found, post b)
      (first.andThen fun found x st => (next x st).map (found ++ ·)).result := by
  rw [Visit.append_result]
  cases outcome : first.result with
  | error f =>
      rw [outcome] at fails
      exact fails
  | ok found =>
      rw [outcome] at fails
      cases last : (next first.left first.store).result with
      | error g => exact further g last
      | ok more => exact fun all => fails (List.forall_mem_append.mp all).1

/-- What the second part does not settle, no first part settles unless a date fails. -/
theorem not_settles_append_of_next (head : Undated first.result)
    (fails : ¬ Settles (fun found => ∀ b ∈ found, post b) (next first.left first.store).result) :
    ¬ Settles (fun found => ∀ b ∈ found, post b)
      (first.andThen fun found x st => (next x st).map (found ++ ·)).result := by
  rw [Visit.append_result]
  cases outcome : first.result with
  | error f => exact head f outcome
  | ok found =>
      intro settles
      apply fails
      exact (settles_map_iff.mp settles).mono fun more all => (List.forall_mem_append.mp all).2

end Sequence

theorem not_settles_bind {α β : Type} {post : β → Prop} {x : Except Fault α}
    (fails : ¬ Settles (fun _ => True) x) (next : α → Except Fault β) :
    ¬ Settles post (x.bind next) := by
  cases x with
  | error f => exact fails
  | ok a => exact absurd trivial fails

/-- A failure that is not that of a date does not settle. -/
theorem not_settles_error {α : Type} {post : α → Prop} {x : Except Fault α} {f : Fault}
    (failed : x = .error f) (undated : f ≠ .dateOutOfRange) : ¬ Settles post x := by
  rw [failed]
  exact undated

/-! ## Messages -/

namespace Rule

variable {r : Rule}

theorem report_undated (r : Rule) (st : Store) (message : String) :
    Undated (r.report st message) := by
  intro f failed
  rw [report] at failed
  split at failed
  · cases failed
  · split at failed
    · rw [Message.ofValue.eq_def] at failed
      split at failed
      · cases failed
      · split at failed <;> cases failed
        simp
    · cases failed

/-- A message that does not speak does not settle when it is reported. -/
theorem not_settles_report (bare : r.Bare) {inner : Bool}
    (mute : r.message.all (·.speaks inner) = false) (st : Store) (message : String) :
    ¬ Settles (fun v : Violation => inner = true → v.message.Spoken) (r.report st message) := by
  rw [report]
  cases own : r.message with
  | none => simp [own] at mute
  | some m =>
      have head : st.head m = m := by
        cases m with
        | shared cell => exact absurd own (bare.message cell)
        | _ => rfl
      rw [own, Option.all_some, Value.speaks, Bool.or_eq_false_iff] at mute
      obtain ⟨truthy, silent⟩ := mute
      rw [Bool.not_eq_false'] at truthy
      simp only [Option.map_some, head, truthy, if_true]
      rw [Message.ofValue.eq_def]
      cases elements : m.elements? with
      | none =>
          split
          · cases elements
          · simp [Settles, Except.map, elements]
      | some parts =>
          simp only [elements, Bool.or_eq_false_iff, Bool.not_eq_false', List.all_eq_false]
            at silent
          obtain ⟨isInner, p, mem, noText⟩ := silent
          split
          next s =>
            cases elements
            obtain ⟨c, -, rfl⟩ := List.mem_map.mp mem
            exact absurd rfl noText
          · rw [elements]
            exact fun settled => noText (settled isInner p mem)

end Rule

/-- The messages of violations that cannot be folded stop the fold. -/
theorem not_settles_foldMessages (key : Value) {found : List Violation}
    (mute : ¬ Foldable true found) :
    ¬ Settles (fun _ => True) (foldMessages key (flattenMessages found)) := by
  have silent : ∃ m ∈ flattenMessages found, m.isText = false := by
    simp only [Foldable, not_forall] at mute
    obtain ⟨v, inFound, -, unspoken⟩ := mute
    cases message : v.message with
    | text s =>
        rw [message] at unspoken
        exact absurd trivial unspoken
    | folded parts =>
        rw [message] at unspoken
        simp only [Message.Spoken, not_forall] at unspoken
        obtain ⟨p, mem, noText⟩ := unspoken
        refine ⟨p, List.mem_flatMap.mpr ⟨v, inFound, ?_⟩, Bool.eq_false_iff.mpr noText⟩
        rw [Violation.messages, message]
        exact mem
  rw [foldMessages, settles_map_iff]
  generalize flattenMessages found = messages at silent
  induction messages with
  | nil => simp at silent
  | cons m rest ih =>
      rw [List.mapM_cons]
      cases m with
      | text s =>
          have inRest : ∃ m ∈ rest, m.isText = false := by simpa [Value.isText] using silent
          refine fun settles => ih inRest ?_
          cases outcome : rest.mapM (prefixPart key) with
          | error f => simpa [prefixPart, bind, Except.bind, outcome] using settles
          | ok parts => trivial
      | callable f =>
          rcases f with t | ⟨id, name⟩
          · cases t <;> simp [prefixPart, bind, Except.bind, Settles, TypeToken.hasReplacement]
          · simp [prefixPart, bind, Except.bind, Settles]
      | _ => simp [prefixPart, bind, Except.bind, Settles]

/-- The value of each rule in entries made from rules. -/
theorem get?_of_rules {rules : List Rule}
    (known : ∀ q ∈ rules, q.name.identity?.isSome = true)
    (apart : (rules.map fun q => q.name.identity?).Nodup) (value : Rule → Value) {r : Rule}
    (mem : r ∈ rules) :
    Entries.get? (rules.map fun q => (q.name, value q)) r.name = some (value r) := by
  induction rules with
  | nil => cases mem
  | cons head rest ih =>
      obtain ⟨i, identity⟩ := Option.isSome_iff_exists.mp (known head List.mem_cons_self)
      rw [List.map_cons, List.nodup_cons] at apart
      rw [List.map_cons, Entries.get?]
      rcases List.mem_cons.mp mem with rfl | inRest
      · rw [if_pos (Value.equal_self (known r List.mem_cons_self))]
      · have differ : ¬ head.name.equal r.name = true := fun same =>
          apart.1 (List.mem_map.mpr ⟨r, inRest,
            ((Value.equal_iff_of_identity? identity _).mp same).trans identity.symm⟩)
        rw [if_neg differ]
        exact ih (fun q mem => known q (List.mem_cons_of_mem head mem)) apart.2 inRest

/-- An item that does not settle is the end of its array. -/
theorem not_settles_ofItems {walk : Walk Bool} {x : Value} {st : Store}
    (fails : ¬ Settles (fun _ => True) (walk x st).result) :
    ¬ Settles (fun _ => True) (Walk.ofItems walk (.list [x]) st).result := by
  dsimp only [Walk.ofItems, Visit.embed]
  rw [Walk.allItems]
  split
  next passed =>
    rw [passed] at fails
    exact absurd trivial fails
  · exact fails

/-! ## Misfits -/

section

variable [UserCode]

/-- The check of a misfit finds one thing and writes nothing. -/
theorem TypeSpec.check_misfit (t : TypeSpec) (r : Rule) (key : Value) (st : Store) :
    ∃ message, t.check r key t.misfit st = Visit.done [.text message] t.misfit st := by
  cases t with
  | scalar kind => cases kind <;> exact ⟨_, rfl⟩
  | nested s => exact ⟨_, rfl⟩
  | array item => cases item <;> exact ⟨_, rfl⟩

/-- A rule whose property is a misfit reports it, and leaves everything as it is. -/
theorem Rule.walk_misfit {r : Rule} (bare : r.Bare) {entries : Entries}
    (there : entries.get? r.name = some r.type.misfit) (s : Schema) (st : Store) :
    ∃ message, r.walk s .object entries st =
      Visit.ofExcept ((r.report st message).map ([·])) entries st := by
  have found : r.valueIn entries = some r.type.misfit :=
    (valueIn_eq_some_iff r entries _).mpr ⟨there, r.type.misfit_ne_null⟩
  obtain ⟨message, checked⟩ := r.type.check_misfit r r.name st
  obtain ⟨started, begun⟩ := start_of_present found true st
  refine ⟨message, ?_⟩
  rw [walk_eq_of_owned Home.isOwned_object bare.custom]
  simp only [Home.writable, started, begun, Visit.andThen, Visit.ofExcept, found, checked,
    Visit.check, Visit.done, Visit.embed, Entries.put_get?_self there, Except.bind, reportAll,
    List.mapM_cons, List.mapM_nil, List.append_nil]
  cases r.report st message <;> rfl

/-- Rules whose properties are misfits fail on no date. -/
theorem walkRules_misfits {rules : List Rule} (bare : ∀ r ∈ rules, r.Bare) {entries : Entries}
    (there : ∀ r ∈ rules, entries.get? r.name = some r.type.misfit) (s : Schema) (st : Store) :
    Undated (walkRules rules s .object entries st).result := by
  induction rules with
  | nil =>
      intro _ failed
      cases failed
  | cons r rest ih =>
      rw [List.forall_mem_cons] at bare there
      obtain ⟨message, walked⟩ := Rule.walk_misfit bare.1 there.1 s st
      rw [walkRules, walked]
      exact undated_append ((r.report_undated st message).map ([·])) (ih bare.2 there.2)

/-- If one rule does not settle and the properties of all others are misfits, the rules do
not settle: the misfits before it change nothing, and those after it fail on no date. -/
theorem not_settles_walkRules {rules : List Rule} {r : Rule} (mem : r ∈ rules)
    (known : ∀ q ∈ rules, q.name.identity?.isSome = true)
    (apart : (rules.map fun q => q.name.identity?).Nodup) (bare : ∀ q ∈ rules, q.Bare)
    {entries : Entries}
    (others : ∀ q ∈ rules, q.name.identity? ≠ r.name.identity? →
      entries.get? q.name = some q.type.misfit)
    (s : Schema) {inner : Bool} {st : Store}
    (fails : ¬ Settles (Foldable inner) (r.walk s .object entries st).result) :
    ¬ Settles (Foldable inner) (walkRules rules s .object entries st).result := by
  induction rules with
  | nil => cases mem
  | cons head rest ih =>
      rw [List.map_cons, List.nodup_cons] at apart
      have differ : ∀ q ∈ rest, q.name.identity? ≠ head.name.identity? := fun q inRest same =>
        apart.1 (List.mem_map.mpr ⟨q, inRest, same⟩)
      have bareRest := fun q inRest => bare q (List.mem_cons_of_mem head inRest)
      rw [walkRules]
      rcases List.mem_cons.mp mem with rfl | inRest
      · refine not_settles_append_of_first fails (walkRules_misfits bareRest ?_ s _)
        intro q inRest
        obtain ⟨j, other⟩ :=
          Option.isSome_iff_exists.mp (known q (List.mem_cons_of_mem r inRest))
        have kept := (Rule.walk_onlyUnder (known r List.mem_cons_self)
          (bare r List.mem_cons_self).custom s Home.isOwned_object entries st).get?_eq q.name j
          other
        rw [kept]
        · exact others q (List.mem_cons_of_mem r inRest) (differ q inRest)
        · intro n isName same
          rw [List.mem_singleton.mp isName, ← other] at same
          exact differ q inRest same.symm
      · obtain ⟨message, walked⟩ := Rule.walk_misfit (bare head List.mem_cons_self)
          (others head List.mem_cons_self (differ r inRest).symm) s st
        rw [walked]
        apply not_settles_append_of_next ((head.report_undated st message).map ([·]))
        apply ih inRest _ apart.2 bareRest
        · exact fun q mem => others q (List.mem_cons_of_mem head mem)
        · exact fun q mem => known q (List.mem_cons_of_mem head mem)

/-! ## Data that stop a run -/

/-- A schema of bare rules whose names can be told apart. -/
structure Schema.Tidy (s : Schema) : Prop where
  names : s.NamesApart
  bare : s.Bare

/-- If one rule does not settle with some value, in some stores, its schema does not settle
with that value among misfits. -/
theorem Schema.exists_not_settles_of_rule {s : Schema} (tidy : s.Tidy) {r : Rule}
    (mem : r ∈ s.rules) {inner : Bool} {x : Value} {among : Store → Prop}
    (fails : ∀ entries st, among st → entries.get? r.name = some x →
      ¬ Settles (Foldable inner) (r.walk s .object entries st).result) :
    ∃ entries, ∀ st, among st →
      ¬ Settles (Foldable inner) (s.walk (.object entries) st).result := by
  classical
  let value (q : Rule) : Value :=
    if q.name.identity? = r.name.identity? then x else q.type.misfit
  let entries : Entries := s.rules.map fun q => (q.name, value q)
  have names := tidy.names
  refine ⟨entries, fun st inside => ?_⟩
  have own : entries.get? r.name = some x := by
    rw [get?_of_rules names.known names.apart value mem]
    simp [value]
  have others : ∀ q ∈ s.rules, q.name.identity? ≠ r.name.identity? →
      entries.get? q.name = some q.type.misfit := by
    intro q inRules differ
    rw [get?_of_rules names.known names.apart value inRules]
    simp [value, differ]
  have stopped := not_settles_walkRules mem names.known names.apart tidy.bare others s
    (fails entries st inside own)
  rw [walk_eq]
  dsimp only [Walk.ofEntries, Value.home?, Visit.embed]
  rw [walkEntries_result, settles_map_iff]
  intro settles
  apply stopped
  exact settles.mono fun found all => (List.forall_mem_append.mp all).2

/-- A nested record that does not settle on violations that can be folded is the end of
the check. -/
theorem not_settles_check_nested {s : Schema} {entries : Entries} {st : Store}
    (fails : ¬ Settles (Foldable true) (s.walk (.object entries) st).result) (r : Rule)
    (key : Value) :
    ¬ Settles (fun _ => True) ((TypeSpec.nested s).check r key (.object entries) st).result := by
  rw [TypeSpec.check]
  dsimp only [Store.head, Value.isMapping, Value.entries?, Visit.check]
  cases outcome : (s.walk (.object entries) st).result with
  | error f =>
      rw [outcome] at fails
      exact fails
  | ok found =>
      rw [outcome] at fails
      have there : found.isEmpty = false := by
        cases found with
        | nil => exact absurd (List.forall_mem_nil _) fails
        | cons first rest => rfl
      simp only [Option.isSome_some, Bool.not_true, Bool.false_eq_true, if_false, Except.bind,
        there, settles_map_iff]
      exact not_settles_foldMessages key fails

/-- A value whose check does not settle is the end of its rule. -/
theorem Rule.not_settles_walk_of_check {r : Rule} (bare : r.Bare) {entries : Entries} {x : Value}
    (there : entries.get? r.name = some x) (present : x ≠ .null) {st : Store}
    (fails : ¬ Settles (fun _ => True) (r.type.check r r.name x st).result) (s : Schema)
    {post : List Violation → Prop} :
    ¬ Settles post (r.walk s .object entries st).result := by
  have found : r.valueIn entries = some x :=
    (valueIn_eq_some_iff r entries x).mpr ⟨there, present⟩
  obtain ⟨started, begun⟩ := start_of_present found true st
  rw [walk_eq_of_owned Home.isOwned_object bare.custom]
  simp only [Home.writable, started, begun, Visit.andThen, Visit.ofExcept, found]
  exact not_settles_bind fails _

/-- A condition on rules such that one that does not meet it is stopped by some value, in some
stores. -/
def StoppedUnless (sound : Rule → Prop) (among : Store → Prop) : Prop :=
  ∀ r : Rule, r.Bare → ¬ sound r → ∃ x, ∀ (s : Schema) entries st, among st →
    entries.get? r.name = some x →
    ∃ f, (r.walk s .object entries st).result = .error f ∧ f ≠ .dateOutOfRange

/-- For a schema that does not speak, or that holds a rule that is stopped by some value, there
are data with which a run does not settle on violations that can be folded where that is
needed. The same holds of types. -/
theorem Schema.exists_not_settles {sound : Rule → Prop} {among : Store → Prop}
    (stopped : StoppedUnless sound among) :
    let Sound : Schema → Prop := fun s => ∀ r ∈ s.rules, sound r
    (∀ s : Schema, s.Throughout Schema.Tidy →
      ∀ inner, s.speaks inner = false ∨ ¬ s.Throughout Sound →
        ∃ entries, ∀ st, among st →
          ¬ Settles (Foldable inner) (s.walk (.object entries) st).result) ∧
    ∀ t : TypeSpec, t.Throughout Schema.Tidy →
      (t.speaks = false ∨ ¬ t.Throughout Sound →
        ∃ x, x ≠ .null ∧ ∀ r key st, among st →
          ¬ Settles (fun _ => True) (t.check r key x st).result) ∧
      (t.speaksAsItem = false ∨ ¬ t.Throughout Sound →
        ∃ x, ∀ st, among st → ¬ Settles (fun _ => True) (t.takes x st).result) := by
  intro Sound
  refine Schema.induction ⟨?schema, ?scalar, ?nested, ?untyped, ?array⟩
  case schema =>
    intro s below tidy inner faulty
    rw [Schema.throughout_iff] at tidy
    have somewhere : ∃ r ∈ s.rules, r.message.all (·.speaks inner) = false ∨ ¬ sound r ∨
        (r.type.speaks = false ∨ ¬ r.type.Throughout Sound) := by
      by_contra nowhere
      have fine : ∀ r ∈ s.rules, r.message.all (·.speaks inner) = true ∧ sound r ∧
          r.type.speaks = true ∧ r.type.Throughout Sound := by
        simpa only [not_exists, not_and, not_or, Bool.not_eq_false, not_not] using nowhere
      rcases faulty with mute | unsound
      · rw [(s.speaks_iff inner).mpr fun r mem => ⟨(fine r mem).1, (fine r mem).2.2.1⟩] at mute
        cases mute
      · exact unsound ((Schema.throughout_iff s).mpr
          ⟨fun r mem => (fine r mem).2.1, fun r mem => (fine r mem).2.2.2⟩)
    obtain ⟨r, mem, silent | unsound | holds⟩ := somewhere
    · refine s.exists_not_settles_of_rule tidy.1 mem (x := r.type.misfit) ?_
      intro entries st _ there settles
      obtain ⟨text, walked⟩ := Rule.walk_misfit (tidy.1.bare r mem) there s st
      rw [walked] at settles
      apply Rule.not_settles_report (tidy.1.bare r mem) silent st text
      exact (settles_map_iff.mp settles).mono fun v all => all v List.mem_cons_self
    · obtain ⟨x, fails⟩ := stopped r (tidy.1.bare r mem) unsound
      refine s.exists_not_settles_of_rule tidy.1 mem (x := x) fun entries st inside there => ?_
      obtain ⟨f, failed, undated⟩ := fails s entries st inside there
      exact not_settles_error failed undated
    · obtain ⟨x, present, fails⟩ := (below r mem (tidy.2 r mem)).1 holds
      refine s.exists_not_settles_of_rule tidy.1 mem (x := x) fun entries st inside there => ?_
      exact Rule.not_settles_walk_of_check (tidy.1.bare r mem) there present
        (fails _ _ st inside) s
  case scalar =>
    intro kind _
    exact ⟨fun faulty => by simp [TypeSpec.speaks, TypeSpec.Throughout] at faulty,
      fun faulty => by simp [TypeSpec.speaksAsItem, TypeSpec.Throughout] at faulty⟩
  case nested =>
    intro s below tidy
    refine ⟨fun faulty => ?_, fun faulty => ?_⟩
    · obtain ⟨entries, fails⟩ := below tidy true faulty
      refine ⟨.object entries, by simp, fun r key st inside => ?_⟩
      exact not_settles_check_nested (fails st inside) r key
    · obtain ⟨entries, fails⟩ := below tidy false faulty
      refine ⟨.object entries, fun st inside settles => fails st inside ?_⟩
      refine (settles_map_iff.mp settles).mono fun _ _ _ _ isInner => ?_
      cases isInner
  case untyped =>
    intro _
    exact ⟨fun faulty => by simp [TypeSpec.speaks, TypeSpec.Throughout] at faulty,
      fun faulty => by simp [TypeSpec.speaksAsItem, TypeSpec.Throughout] at faulty⟩
  case array =>
    intro item below tidy
    refine ⟨fun faulty => ?_, fun faulty => ?_⟩
    · obtain ⟨x, fails⟩ := (below tidy).2 faulty
      refine ⟨.list [x], by simp, fun r key st inside settles => ?_⟩
      rw [TypeSpec.check] at settles
      exact not_settles_ofItems (fails st inside) (settles_map_iff.mp settles)
    · obtain ⟨x, fails⟩ := (below tidy).2 faulty
      refine ⟨.list [x], fun st inside => ?_⟩
      rw [TypeSpec.takes]
      exact not_settles_ofItems (fails st inside)

/-- A text stops a rule whose pattern cannot be searched for in it. -/
theorem stopped_unless_searchable : StoppedUnless Rule.Searchable fun _ => True := by
  intro r bare bytes
  rw [Rule.Searchable, Classical.not_imp, Bool.not_eq_false] at bytes
  refine ⟨.text "", fun s entries st _ there => ⟨.patternOfBytes, ?_, by simp⟩⟩
  have found : r.valueIn entries = some (.text "") :=
    (r.valueIn_eq_some_iff entries _).mpr ⟨there, by simp⟩
  obtain ⟨started, begun⟩ := Rule.start_of_present found true st
  rw [Rule.walk_eq_of_owned Home.isOwned_object bare.custom]
  simp only [Home.writable, started, begun, Visit.andThen, Visit.ofExcept, found]
  rw [bytes.1, TypeSpec.check]
  simp [Visit.embed, Visit.check, Visit.ofExcept, Rule.scalarFailures, Store.head, bytes.2,
    Except.map, Except.bind]

/-- The absence of a value stops a rule whose producer sends a signal. -/
theorem stopped_unless_quiet (st : Store) : StoppedUnless (Rule.QuietIn st) (· = st) := by
  intro r bare loud
  rw [Rule.quietIn_iff] at loud
  refine ⟨.null, fun s entries _ same there => ?_⟩
  rw [same]
  have absent : r.valueIn entries = none := by
    rw [Rule.valueIn, there]
  cases outcome : (r.defaultValue st).1 with
  | ok v => exact absurd ⟨v, outcome⟩ loud
  | error f =>
      refine ⟨f, ?_, fun isDate => ?_⟩
      · rw [Rule.walk_eq_of_owned Home.isOwned_object bare.custom]
        simp [Home.writable, Rule.start, absent, outcome, Visit.andThen, Visit.ofExcept, Except.map]
      · have signal := r.isSignal_of_defaultValue outcome
        rw [isDate] at signal
        cases signal

/-! ## Compiled schemas -/

/-- A schema without custom validators. -/
def Schema.WithoutCustom (s : Schema) : Prop := ∀ r ∈ s.rules, r.custom = none

theorem Schema.result_validate (s : Schema) (v : Value) (st : Store) :
    (s.validate v st).result = (s.walk v st).result.map (⟨·, (s.walk v st).left⟩) := rfl

/-- A walk that settles keeps a validation from reporting only by a date. -/
theorem Schema.fault_of_settles {s : Schema} {v : Value} {st : Store}
    {post : List Violation → Prop} (settles : Settles post (s.walk v st).result) {f : Fault}
    (failed : (s.validate v st).result = .error f) : f = .dateOutOfRange := by
  rw [Schema.result_validate] at failed
  cases outcome : (s.walk v st).result with
  | error g =>
      rw [outcome] at settles failed
      cases failed
      exact settles
  | ok found =>
      rw [outcome] at failed
      cases failed

omit [UserCode] in
/-- Without custom validators, a schema that is compiled from a distinct declaration is tidy. -/
theorem Declaration.compile_tidy {declaration : Value} {strict : Bool} {s : Schema}
    (distinct : declaration.Distinct) (compiled : compile declaration strict = .ok s)
    (custom : s.Throughout Schema.WithoutCustom) : s.Throughout Schema.Tidy :=
  Schema.Throughout.and_then
    (fun _ owned plain => ⟨owned.names, fun r mem => ⟨plain r mem, owned.messages r mem⟩⟩) s
    (compile_throughout distinct compiled) custom

/-- Which compiled schemas without custom validators are safe. One that speaks and is harmless
is: only a date whose numbers are out of range stops a run over any data. One that does not
speak, or that has a pattern for byte strings where a text is searched, is not: some data stop
every run over them, in whatever store. Neither is one with a producer that sends a signal in
some store: some data stop a run over them in that store. -/
theorem Declaration.compiled_safety {declaration : Value} {strict : Bool} {s : Schema}
    (distinct : declaration.Distinct) (compiled : compile declaration strict = .ok s)
    (custom : s.Throughout Schema.WithoutCustom) :
    (s.speaks false = true → s.Throughout Schema.Harmless →
      ∀ v st f, (s.validate v st).result = .error f → f = .dateOutOfRange) ∧
    (s.speaks false = false ∨ ¬ s.Throughout Schema.Searchable →
      ∃ v, ∀ st, ∃ f, (s.validate v st).result = .error f ∧ f ≠ .dateOutOfRange) ∧
    ∀ st, ¬ s.Throughout (Schema.QuietIn st) →
      ∃ v f, (s.validate v st).result = .error f ∧ f ≠ .dateOutOfRange := by
  have tidy := compile_tidy distinct compiled custom
  -- Outside of a nested record nothing is asked of the violations.
  have failed {entries : Entries} {st : Store}
      (fails : ¬ Settles (Foldable false) (s.walk (.object entries) st).result) :
      ∃ f, (s.validate (.object entries) st).result = .error f ∧ f ≠ .dateOutOfRange := by
    rw [Schema.result_validate]
    cases outcome : (s.walk (.object entries) st).result with
    | error g =>
        rw [outcome] at fails
        exact ⟨g, rfl, fails⟩
    | ok found =>
        rw [outcome] at fails
        refine absurd (fun _ _ isInner => ?_) fails
        cases isInner
  refine ⟨fun speaks harmless v st f stopped => ?safe, fun faulty => ?always, fun st loud => ?once⟩
  case safe =>
    exact Schema.fault_of_settles
      (Schema.settles.1 s (tidy.imp fun _ own => own.bare) harmless false speaks v st) stopped
  case always =>
    obtain ⟨entries, fails⟩ :=
      (Schema.exists_not_settles stopped_unless_searchable).1 s tidy false faulty
    exact ⟨.object entries, fun st => failed (fails st trivial)⟩
  case once =>
    obtain ⟨entries, fails⟩ :=
      (Schema.exists_not_settles (stopped_unless_quiet st)).1 s tidy false (.inr loud)
    obtain ⟨f, outcome⟩ := failed (fails st rfl)
    exact ⟨.object entries, f, outcome⟩

end

/-- A property that is given by its options. -/
def propertyA (options : Entries) : Value := .object [(.text "a", .object options)]

/-- A nested record with a text property whose message is a list of a number. -/
def listAsNestedMessage : Value :=
  propertyA [(.text "b",
    .object [(.text "type", .callable (.token .text)), (.text "message", .list [.int 5])])]

/-- A text property with a pattern for byte strings. -/
def bytesPatternForText : Value :=
  propertyA [(.text "type", .callable (.token .text)),
    (.text "regex", .pattern (.forBytes [120] {}))]

/-- A text property with a function for a default. -/
def functionAsDefault : Value :=
  propertyA [(.text "type", .callable (.token .text)),
    (.text "default", .callable (.function 0 "leave"))]

namespace EndingProducers

/-- Every function ends the program when it is asked for a default. -/
scoped instance : UserCode :=
  ⟨fun _ => { Function.refusing with
    produce := fun st => (.error (.raised ⟨"SystemExit", true⟩ ""), st) }⟩

end EndingProducers

open EndingProducers in
/-- Outside of a nested record the first message would be reported as it is. -/
theorem compiled_safety_listAsNestedMessage :
    (listAsNestedMessage.Distinct ∧ ∃ s, Declaration.compile listAsNestedMessage true = .ok s ∧
      s.Throughout Schema.WithoutCustom ∧ s.speaks false = false ∧
      ∃ v, ∀ st, ∃ f, (s.validate v st).result = .error f ∧ f ≠ .dateOutOfRange) ∧
    (bytesPatternForText.Distinct ∧ ∃ s, Declaration.compile bytesPatternForText true = .ok s ∧
      s.Throughout Schema.WithoutCustom ∧ ¬ s.Throughout Schema.Searchable ∧
      ∃ v, ∀ st, ∃ f, (s.validate v st).result = .error f ∧ f ≠ .dateOutOfRange) ∧
    (functionAsDefault.Distinct ∧ ∃ s, Declaration.compile functionAsDefault true = .ok s ∧
      s.Throughout Schema.WithoutCustom ∧ ¬ s.Throughout (Schema.QuietIn .empty) ∧
      ∃ v f, (s.validate v .empty).result = .error f ∧ f ≠ .dateOutOfRange) := by
  refine ⟨?message, ?pattern, ?producer⟩
  case message =>
    have distinct : listAsNestedMessage.Distinct := by
      refine ⟨⟨?_, ?_⟩, ⟨⟨?_, ?_⟩, ⟨⟨?_, ?_⟩, trivial, ⟨trivial, trivial⟩, trivial⟩, trivial⟩,
        trivial⟩ <;> simp [Value.identity?]
    have custom (s : Schema) (compiled : Declaration.compile listAsNestedMessage true = .ok s) :
        s.Throughout Schema.WithoutCustom := by
      cases compiled
      refine ⟨?_, ⟨?_, trivial, trivial⟩, trivial⟩ <;> exact List.forall_mem_singleton.mpr rfl
    exact ⟨distinct, _, rfl, custom _ rfl, rfl,
      (Declaration.compiled_safety distinct rfl (custom _ rfl)).2.1 (.inl rfl)⟩
  case pattern =>
    have distinct : bytesPatternForText.Distinct := by
      refine ⟨⟨?_, ?_⟩, ⟨⟨?_, ?_⟩, trivial, trivial, trivial⟩, trivial⟩ <;> simp [Value.identity?]
    have custom (s : Schema) (compiled : Declaration.compile bytesPatternForText true = .ok s) :
        s.Throughout Schema.WithoutCustom := by
      cases compiled
      exact ⟨List.forall_mem_singleton.mpr rfl, trivial, trivial⟩
    have unsearchable (s : Schema)
        (compiled : Declaration.compile bytesPatternForText true = .ok s) :
        ¬ s.Throughout Schema.Searchable := by
      cases compiled
      intro searchable
      cases searchable.1 _ List.mem_cons_self rfl
    exact ⟨distinct, _, rfl, custom _ rfl, unsearchable _ rfl,
      (Declaration.compiled_safety distinct rfl (custom _ rfl)).2.1 (.inr (unsearchable _ rfl))⟩
  case producer =>
    have distinct : functionAsDefault.Distinct := by
      refine ⟨⟨?_, ?_⟩, ⟨⟨?_, ?_⟩, trivial, trivial, trivial⟩, trivial⟩ <;> simp [Value.identity?]
    have custom (s : Schema) (compiled : Declaration.compile functionAsDefault true = .ok s) :
        s.Throughout Schema.WithoutCustom := by
      cases compiled
      exact ⟨List.forall_mem_singleton.mpr rfl, trivial, trivial⟩
    have loud (s : Schema) (compiled : Declaration.compile functionAsDefault true = .ok s) :
        ¬ s.Throughout (Schema.QuietIn .empty) := by
      cases compiled
      intro quiet
      cases quiet.1 _ List.mem_cons_self _ _ rfl rfl
    exact ⟨distinct, _, rfl, custom _ rfl, loud _ rfl,
      (Declaration.compiled_safety distinct rfl (custom _ rfl)).2.2 .empty (loud _ rfl)⟩

/-- A text property whose message is a number. -/
def numberAsMessage : Value :=
  propertyA [(.text "type", .callable (.token .text)), (.text "message", .int 5)]

/-- The declaration is accepted, and a number in the place of the text stops the run. -/
theorem numberAsMessage_stops [UserCode] (st : Store) :
    ∃ s, Declaration.compile numberAsMessage true = .ok s ∧
      (s.validate (.object [(.text "a", .int 1)]) st).result = .error .messageWithoutParts :=
  ⟨_, rfl, rfl⟩

end DataContract
