/-
# Messages only label

The message of a rule takes the place of the texts that are reported about its property,
and that is all it does. Two schemas that differ in nothing but such messages, at any
depth, are compared by what they have in common: the schema without any. A run against
a schema and one against what remains of it go side by side, so two schemas with the same
remainder find as much under the same keys, fold the same violations and leave the same
data. At the top, moreover, a run is that of the schema without its own messages with
each text about a property exchanged for the message of the rule.
-/

import DataContract.Proofs.Validation.Folding
import DataContract.Proofs.Validation.Safety
import DataContract.Proofs.Validation.SideBySide

set_option autoImplicit false

namespace DataContract

/-- Both messages are texts, or both are folded with as many parts. -/
def Message.SameShape : Message → Message → Prop
  | .text _, .text _ => True
  | .folded parts, .folded parts' => parts'.length = parts.length
  | _, _ => False

/-- Two violations under one key whose messages have the same shape. -/
structure Violation.Alike (x y : Violation) : Prop where
  key : y.key = x.key
  shape : x.message.SameShape y.message

theorem Message.SameShape.symm {m n : Message} (same : m.SameShape n) : n.SameShape m := by
  cases m <;> cases n
  · trivial
  · exact same
  · exact same
  · exact Eq.symm same

theorem Message.SameShape.trans {l m n : Message} (first : l.SameShape m) (second : m.SameShape n) :
    l.SameShape n := by
  cases l <;> cases m <;> cases n <;> first | trivial | cases first | cases second | skip
  exact Eq.trans second first

theorem Violation.Alike.symm {x y : Violation} (alike : x.Alike y) : y.Alike x :=
  ⟨alike.key.symm, alike.shape.symm⟩

theorem Violation.Alike.trans {x y z : Violation} (first : x.Alike y) (second : y.Alike z) :
    x.Alike z :=
  ⟨second.key.trans first.key, first.shape.trans second.shape⟩

/-- As many messages come from alike violations. -/
theorem length_flattenMessages {xs ys : List Violation}
    (alike : List.Forall₂ Violation.Alike xs ys) :
    (flattenMessages ys).length = (flattenMessages xs).length := by
  induction alike with
  | nil => rfl
  | @cons x y _ _ head _ ih =>
      have own : y.messages.length = x.messages.length := by
        obtain ⟨key, m⟩ := x
        obtain ⟨key', n⟩ := y
        have shape : m.SameShape n := head.shape
        cases m <;> cases n <;> first | rfl | cases shape | exact shape
      simp only [flattenMessages, List.flatMap_cons, List.length_append] at ih ⊢
      rw [ih, own]

/-- Alike violations that can be folded are folded into messages of the same shape. -/
theorem foldMessages_sameShape (key : Value) {xs ys : List Violation}
    (alike : List.Forall₂ Violation.Alike xs ys) (spoken : ∀ x ∈ xs, x.message.Spoken)
    (spoken' : ∀ y ∈ ys, y.message.Spoken) :
    Paired Eq Message.SameShape (foldMessages key (flattenMessages xs))
      (foldMessages key (flattenMessages ys)) := by
  have length := length_flattenMessages alike
  obtain ⟨texts, own⟩ := exists_texts_of_isText (isText_of_mem_flattenMessages spoken)
  obtain ⟨texts', own'⟩ := exists_texts_of_isText (isText_of_mem_flattenMessages spoken')
  rw [own, own'] at length ⊢
  rw [foldMessages_texts, foldMessages_texts]
  refine .ok ?_
  simpa [Message.SameShape] using length

/-! ## Schemas without messages -/

mutual

/-- A schema without the messages of its rules, at any depth. -/
def Schema.unworded : Schema → Schema
  | ⟨rules, flex⟩ => ⟨unwordedRules rules, flex⟩
  termination_by structural s => s

/-- Rules without messages. -/
def unwordedRules : List Rule → List Rule
  | [] => []
  | r :: rest => r.unworded :: unwordedRules rest
  termination_by structural rules => rules

/-- A rule without a message, and with none below it. -/
def Rule.unworded (r : Rule) : Rule :=
  match r with
  | { name, type, required, custom, pattern, min, max, choices, default, .. } =>
    { name, type := type.unworded, required, custom, pattern, min, max, choices, default,
      message := none }
  termination_by structural r

/-- A type without messages below it. -/
def TypeSpec.unworded : TypeSpec → TypeSpec
  | .scalar kind => .scalar kind
  | .nested s => .nested s.unworded
  | .array none => .array none
  | .array (some item) => .array (some item.unworded)
  termination_by structural t => t

end

theorem unwordedRules_eq_map (rules : List Rule) :
    unwordedRules rules = rules.map Rule.unworded := by
  induction rules with
  | nil => rfl
  | cons r rest ih => rw [unwordedRules, ih, List.map_cons]

theorem Rule.unworded_eq (r : Rule) :
    r.unworded = { r with type := r.type.unworded, message := none } := by
  obtain ⟨name, type, required, custom, pattern, min, max, choices, default, message⟩ := r
  rfl

/-- A schema that tolerates as much and has rules of the same names reports the same keys. -/
theorem Schema.undeclared_of_names {s t : Schema} (flex : t.flex = s.flex)
    (names : t.rules.map (·.name) = s.rules.map (·.name)) (entries : Entries) :
    t.undeclared entries = s.undeclared entries := by
  have declares (key : Value) : t.declares key = s.declares key := by
    have named (rules : List Rule) :
        (rules.any fun r => r.name.equal key) = (rules.map (·.name)).any (·.equal key) := by
      rw [List.any_map]
      rfl
    rw [Schema.declares, Schema.declares, named, named, names]
  rw [undeclared, undeclared, flex]
  simp only [declares]

/-! ## What a rule says -/

/-- The message of a rule, unless it is absent or empty. -/
def Rule.ownText (r : Rule) : Option String :=
  match r.message with
  | some (.text s) => if s = "" then none else some s
  | _ => none

/-- A rule puts its own message into the place of a text, and leaves folded messages as they
are. -/
def Rule.relabel (r : Rule) : Message → Message
  | .text s => .text (r.ownText.getD s)
  | .folded parts => .folded parts

/-- The violation of a rule with a message. -/
def Rule.violation (r : Rule) (m : Message) : Violation := ⟨r.name, r.relabel m⟩

theorem mapM_ok {ε α β : Type} (f : α → β) (items : List α) :
    items.mapM (fun a => (.ok (f a) : Except ε β)) = .ok (items.map f) :=
  List.mapM_pure

namespace Rule

variable {r r' : Rule}

theorem report_of_worded (worded : r.Worded) (st : Store) (message : String) :
    r.report st message = .ok (r.violation (.text message)) := by
  rw [report, violation, relabel, ownText]
  cases own : r.message with
  | none => rfl
  | some m =>
      obtain ⟨s, rfl⟩ := worded m own
      by_cases empty : s = "" <;>
        simp [Store.head, Value.truthy, Message.ofValue, empty, Except.map]

theorem reportAll_of_worded (worded : r.Worded) (st : Store) (messages : List Message) :
    r.reportAll st messages = .ok (messages.map r.violation) := by
  rw [← mapM_ok, reportAll]
  refine congrArg (List.mapM · messages) (funext fun message => ?_)
  cases message with
  | text s => exact report_of_worded worded st s
  | folded parts => rfl

end Rule

section

variable [UserCode]

/-- A custom validator that does not look at the schema. -/
def Callable.Blind (f : Callable) : Prop :=
  ∀ (key v record : Value) (s s' : Schema) (st : Store),
    f.judge key v record s st = f.judge key v record s' st

/-- A rule whose custom validator, if it has one, does not look at the schema. -/
def Rule.Blind (r : Rule) : Prop := ∀ f, r.custom = some f → f.Blind

/-- A schema of such rules. -/
def Schema.Blind (s : Schema) : Prop := ∀ r ∈ s.rules, r.Blind

/-- What two custom validators find is related, and they leave the value alike. -/
structure Judged.Alike (found : Violation → Violation → Prop) (judged judged' : Judged) : Prop where
  found : List.Forall₂ found judged.found judged'.found
  value : judged'.value = judged.value
  inPlace : judged'.inPlace = judged.inPlace

namespace Rule

variable {r r' : Rule}

/-- What custom validators find in two rules that ask the same one. -/
theorem judgeCustom_paired (worded : r.Worded) (worded' : r'.Worded) (name : r'.name = r.name)
    (custom : r'.custom = r.custom) (blind : r.Blind) {found : Violation → Violation → Prop}
    (reports : ∀ s, found (r.violation (.text s)) (r'.violation (.text s))) (s s' : Schema)
    (home : Home) (v : Value) (entries : Entries) (st : Store) :
    (r.judgeCustom s home v entries st).Paired Eq Eq (Judged.Alike found)
      (r'.judgeCustom s' home v entries st) := by
  have reported (answer : Value) (st : Store) :
      Paired Eq (List.Forall₂ found) ((r.customFailures answer).mapM (r.report st))
        ((r'.customFailures answer).mapM (r'.report st)) := by
    have same : r'.customFailures answer = r.customFailures answer := by
      rw [customFailures.eq_def, customFailures.eq_def, name]
    have each : r.report st = fun s => .ok (r.violation (.text s)) :=
      funext (report_of_worded worded st)
    have each' : r'.report st = fun s => .ok (r'.violation (.text s)) :=
      funext (report_of_worded worded' st)
    rw [same, each, each', mapM_ok, mapM_ok]
    refine .ok ?_
    rw [List.forall₂_map_left_iff, List.forall₂_map_right_iff, List.forall₂_same]
    exact fun s _ => reports s
  rw [judgeCustom, judgeCustom, custom]
  cases own : r.custom with
  | none => exact .done ⟨.nil, rfl, rfl⟩ rfl st
  | some f =>
      dsimp only
      rw [name, blind f own r.name v (home.value entries) s s' st]
      generalize f.judge r.name v (home.value entries) s' st = judgement
      obtain ⟨⟨answer, record, moved⟩, left⟩ := judgement
      refine .ofExcept ?_ rfl left
      cases answer with
      | error fault => exact .error rfl
      | ok answer => exact (reported answer left).map fun _ _ same => ⟨same, rfl, rfl⟩

/-- Two rules that differ in their messages, and in their types as long as the checks of these go
side by side, are applied side by side. -/
theorem walk_paired (said : Message → Message → Prop)
    (akin : r' = { r with type := r'.type, message := r'.message })
    (worded : r.Worded) (worded' : r'.Worded) (blind : r.Blind)
    {found : Violation → Violation → Prop}
    (texts : ∀ s, said (.text s) (.text s))
    (reports : ∀ m n, said m n → found (r.violation m) (r'.violation n))
    (checked : ∀ v st, (r.type.check r r.name v st).Paired Eq Eq (List.Forall₂ said)
      (r'.type.check r' r'.name v st))
    (s s' : Schema) (home : Home) (entries : Entries) (st : Store) :
    (r.walk s home entries st).Paired Eq Eq (List.Forall₂ found) (r'.walk s' home entries st) := by
  have name : r'.name = r.name := by rw [akin]
  have required : r'.required = r.required := by rw [akin]
  have custom : r'.custom = r.custom := by rw [akin]
  have fill : r'.fill = r.fill := by
    rw [akin]
    rfl
  have valueIn : r'.valueIn = r.valueIn := by
    rw [akin]
    rfl
  have told (t : String) := reports _ _ (texts t)
  have begun : (r.fill home entries st).Paired Eq Eq Eq (r.fill home entries st) :=
    ⟨.of_eq (fun _ => rfl) (fun _ => rfl) _, rfl, rfl⟩
  rw [walk_eq, walk_eq, fill]
  refine begun.andThen fun _ _ entries _ st _ same => ?_
  subst same
  rw [valueIn, required]
  cases r.valueIn entries with
  | none =>
      refine .ofExcept ?_ rfl _
      split
      · rw [report_of_worded worded, report_of_worded worded', name]
        exact .ok (.cons (told _) .nil)
      · exact .ok .nil
  | some v =>
      have judged := judgeCustom_paired worded worded' name custom blind told s s' home v entries st
      refine judged.andThen fun earlier earlier' entries _ st alike same => ?_
      subst same
      have reported (st st' : Store) (ms ns : List Message) (alike : List.Forall₂ said ms ns) :
          Paired Eq (List.Forall₂ found) (r.reportAll st ms) (r'.reportAll st' ns) := by
        rw [reportAll_of_worded worded, reportAll_of_worded worded']
        refine .ok ?_
        rw [List.forall₂_map_left_iff, List.forall₂_map_right_iff]
        exact alike.imp reports
      have checks := (checked earlier.value st).settle
        (home.putBack r.name earlier.value earlier.inPlace entries)
      rw [alike.value, alike.inPlace, ← name] at *
      exact (checks.check (reported _ _)).map fun _ _ later => List.rel_append alike.found later

end Rule

/-! ## The run without messages -/

omit [UserCode] in
theorem Schema.worded_unworded (s : Schema) : s.unworded.Worded := by
  obtain ⟨rules, flex⟩ := s
  intro r mem m own
  rw [unworded, unwordedRules_eq_map] at mem
  obtain ⟨q, -, rfl⟩ := List.mem_map.mp mem
  rw [Rule.unworded_eq] at own
  cases own

omit [UserCode] in
/-- A schema leaves the same keys undeclared without its messages. -/
theorem Schema.undeclared_unworded (s : Schema) (entries : Entries) :
    s.unworded.undeclared entries = s.undeclared entries := by
  obtain ⟨rules, flex⟩ := s
  refine undeclared_of_names ?_ ?_ entries
  · rw [unworded]
  · rw [unworded, unwordedRules_eq_map, List.map_map]
    exact List.map_congr_left fun r _ => by simp [Rule.unworded_eq]

/-- Rules and what remains of them without messages are applied side by side, if that is so of the
checks of their types. -/
theorem walkRules_unworded {rules : List Rule} (worded : ∀ r ∈ rules, r.Worded)
    (blind : ∀ r ∈ rules, r.Blind)
    (checked : ∀ r ∈ rules, ∀ v st, (r.type.check r r.name v st).Paired Eq Eq
      (List.Forall₂ Message.SameShape) (r.type.unworded.check r.unworded r.name v st))
    (s s' : Schema) (home : Home) (entries : Entries) (st : Store) :
    (walkRules rules s home entries st).Paired Eq Eq (List.Forall₂ Violation.Alike)
      (walkRules (rules.map Rule.unworded) s' home entries st) := by
  induction rules generalizing entries st with
  | nil => exact .done .nil rfl st
  | cons r rest ih =>
      rw [List.forall_mem_cons] at worded blind checked
      rw [List.map_cons, walkRules, walkRules]
      refine .append ?_ fun x y st same => ?_
      · have checks := checked.1
        rw [Rule.unworded_eq] at checks ⊢
        refine Rule.walk_paired Message.SameShape rfl worded.1 (fun _ own => by cases own) blind.1
          (fun _ => trivial) (fun m n same => ⟨rfl, ?_⟩) checks s s' home entries st
        cases m <;> cases n <;> exact same
      · subst same
        exact ih worded.2 blind.2 checked.2 x st

/-- A run goes side by side with the run against the schema without messages: alike violations
under the same keys, the same data left, and the same failures. So do checks of a type, and asking
whether it takes a value. -/
theorem Schema.unworded_paired :
    (∀ s : Schema, s.Throughout Schema.Worded → s.Throughout Schema.Blind → ∀ v st,
      (s.walk v st).Paired Eq Eq (List.Forall₂ Violation.Alike) (s.unworded.walk v st)) ∧
    ∀ t : TypeSpec, t.Throughout Schema.Worded → t.Throughout Schema.Blind →
      (∀ r type message key v st, (t.check r key v st).Paired Eq Eq
        (List.Forall₂ Message.SameShape) (t.unworded.check { r with type, message } key v st)) ∧
      ∀ v st, (t.takes v st).Paired Eq Eq Eq (t.unworded.takes v st) := by
  have texts (found : List String) :
      List.Forall₂ Message.SameShape (found.map Message.text) (found.map .text) := by
    rw [List.forall₂_map_left_iff, List.forall₂_map_right_iff, List.forall₂_same]
    exact fun _ _ => trivial
  refine Schema.induction ⟨?schema, ?scalar, ?nested, ?untyped, ?array⟩
  case schema =>
    intro s below worded blind v st
    rw [Schema.throughout_iff] at worded blind
    have rules : s.unworded.rules = s.rules.map Rule.unworded := by
      obtain ⟨rules, flex⟩ := s
      rw [Schema.unworded, unwordedRules_eq_map]
    rw [Schema.walk_eq, Schema.walk_eq]
    refine Walk.ofEntries_paired (fun home entries st => ?_) ?_ v st
    · rw [Schema.walkEntries, Schema.walkEntries, s.undeclared_unworded, rules]
      refine .tally (.map ?_ fun _ _ alike => List.rel_append ?_ alike) _ _
      · refine walkRules_unworded worded.1 blind.1 (fun r mem v st => ?_) _ _ home entries st
        rw [Rule.unworded_eq]
        exact (below r mem (worded.2 r mem) (blind.2 r mem)).1 r _ _ r.name v st
      · exact List.forall₂_same.mpr fun x _ =>
          ⟨rfl, by cases x.message <;> simp [Message.SameShape]⟩
    · exact .cons ⟨rfl, trivial⟩ .nil
  case scalar =>
    intro kind _ _
    refine ⟨fun r type message key v st => ?_, fun v st => ?_⟩
    · have scalar : Paired Eq Eq (r.scalarFailures key kind (st.head v)) _ :=
        .of_eq (fun _ => rfl) (fun _ => rfl) _
      exact .ofExcept (scalar.map fun _ _ same => same ▸ texts _) rfl st
    · exact ⟨.of_eq (fun _ => rfl) (fun _ => rfl) _, rfl, rfl⟩
  case nested =>
    intro s below worded blind
    have own := (s.throughout_iff.mp worded).1
    refine ⟨fun r type message key v st => ?_, fun v st => ?_⟩
    · rw [TypeSpec.unworded, TypeSpec.check, TypeSpec.check]
      split
      · exact .done (texts [_]) rfl st
      · -- Messages are folded if they are texts, which those of both runs are.
        have walked := (below worded blind v st).and
          (fun _ => s.walk_spoken own) fun _ => s.unworded.walk_spoken s.worded_unworded
        refine walked.check fun xs ys found => ?_
        obtain ⟨alike, spoken, spoken'⟩ := found
        have empty : ys.isEmpty = xs.isEmpty := by cases alike <;> rfl
        rw [empty]
        split
        · exact .ok .nil
        · exact (foldMessages_sameShape key alike spoken spoken').map
            fun _ _ same => .cons same .nil
    · rw [TypeSpec.unworded, TypeSpec.takes, TypeSpec.takes]
      refine (below worded blind v st).map fun xs ys alike => ?_
      cases alike <;> rfl
  case untyped =>
    intro _ _
    refine ⟨fun r type message key v st => ?_, fun v st => ?_⟩
    · rw [TypeSpec.unworded, TypeSpec.check, TypeSpec.check]
      split
      · exact .done (texts [_]) rfl st
      · exact .done (texts _) rfl st
    · rw [TypeSpec.unworded]
      exact ⟨.of_eq (fun _ => rfl) (fun _ => rfl) _, rfl, rfl⟩
  case array =>
    intro item below worded blind
    have asked := Walk.ofItems_paired (below worded blind).2
    refine ⟨fun r type message key v st => ?_, asked⟩
    rw [TypeSpec.unworded, TypeSpec.check, TypeSpec.check]
    split
    · exact .done (texts [_]) rfl st
    · refine (asked v st).map fun all all' same => List.rel_append (texts _) ?_
      subst same
      cases all
      · exact .cons trivial .nil
      · exact .nil

omit [UserCode] in
theorem forall₂_alike_of_common {xs ys zs : List Violation}
    (left : List.Forall₂ Violation.Alike xs zs) (right : List.Forall₂ Violation.Alike ys zs) :
    List.Forall₂ Violation.Alike xs ys := by
  induction left generalizing ys with
  | nil =>
      cases right
      exact .nil
  | cons head _ ih =>
      cases right with
      | cons head' tail' => exact .cons (head.trans head'.symm) (ih tail')

/-! ## Labels at the top -/

/-- A schema without the messages of its own rules; those below stay. -/
def Schema.withoutOwnMessages (s : Schema) : Schema :=
  ⟨s.rules.map fun r => { r with message := none }, s.flex⟩

/-- What is found is what the schema finds without the messages of its own rules, where the rule
that reports a violation puts its message into the place of a text. The keys that are not declared
and data that are no mapping are reported alike. -/
def Schema.Labels (s : Schema) (v : Value) (st : Store) (found : List Violation) : Prop :=
  ∃ plain, (s.withoutOwnMessages.walk v st).result = .ok plain ∧
    match (st.head v).entries? with
    | some entries =>
      ∃ ruled bare, found = s.undeclared entries ++ ruled ∧ plain = s.undeclared entries ++ bare ∧
        List.Forall₂ (fun x y => ∃ r ∈ s.rules, y.key = r.name ∧ x = r.violation y.message)
          ruled bare
    | none => found = [.notARecord] ∧ plain = [.notARecord]

/-- What a check finds does not depend on the message of its rule. -/
theorem TypeSpec.check_of_message (t : TypeSpec) (r : Rule) (message : Option Value) :
    t.check { r with message } = t.check r := by
  cases t with
  | scalar kind => rfl
  | nested s => rfl
  | array item => cases item <;> rfl

/-- Some rules go side by side with the same rules without their messages, and each labels what it
finds. -/
theorem walkRules_labels {rules all : List Rule} (subset : ∀ r ∈ rules, r ∈ all)
    (worded : ∀ r ∈ rules, r.Worded) (blind : ∀ r ∈ rules, r.Blind) (s s' : Schema)
    (home : Home) (entries : Entries) (st : Store) :
    (walkRules rules s home entries st).Paired Eq Eq
      (List.Forall₂ fun x y => ∃ r ∈ all, y.key = r.name ∧ x = r.violation y.message)
      (walkRules (rules.map fun r => { r with message := none }) s' home entries st) := by
  induction rules generalizing entries st with
  | nil => exact .done .nil rfl st
  | cons r rest ih =>
      rw [List.forall_mem_cons] at subset worded blind
      rw [List.map_cons, walkRules, walkRules]
      refine .append ?_ fun x y st same => ?_
      · refine Rule.walk_paired Eq rfl worded.1 (fun _ own => by cases own) blind.1
          (fun _ => rfl) ?_ (fun v st => ?_) s s' home entries st
        · rintro m _ rfl
          exact ⟨r, subset.1, rfl, by cases m <;> rfl⟩
        · rw [List.forall₂_eq_eq_eq, r.type.check_of_message]
          exact ⟨.of_eq (fun _ => rfl) (fun _ => rfl) _, rfl, rfl⟩
      · subst same
        exact ih subset.2 worded.2 blind.2 x st

/-- What a run finds is labelled by the rules at the top. -/
theorem Schema.labels_of_walk {s : Schema} (worded : s.Worded) (blind : s.Blind) {v : Value}
    {st : Store} {found : List Violation} (walked : (s.walk v st).result = .ok found) :
    s.Labels v st found := by
  have names : s.withoutOwnMessages.rules.map (·.name) = s.rules.map (·.name) := by
    rw [withoutOwnMessages, List.map_map]
    rfl
  rw [Labels, walk_result]
  rw [walk_result] at walked
  cases record : v.home? st with
  | none =>
      rw [record] at walked
      rw [(v.home?_eq_none_iff st).mp record]
      cases walked
      exact ⟨_, rfl, rfl, rfl⟩
  | some data =>
      obtain ⟨home, entries⟩ := data
      obtain ⟨-, -, mapping⟩ := Value.home?_spec record
      rw [record] at walked
      rw [mapping]
      obtain ⟨ruled, own, rfl⟩ := Declaration.map_eq_ok.mp walked
      obtain ⟨bare, own', labelled⟩ := (walkRules_labels (fun _ mem => mem) worded blind s
        s.withoutOwnMessages home entries st).result.exists_ok own
      refine ⟨s.undeclared entries ++ bare, ?_, ruled, bare, rfl, rfl, labelled⟩
      dsimp only
      have strangers : s.withoutOwnMessages.undeclared entries = s.undeclared entries :=
        undeclared_of_names (s := s) (t := s.withoutOwnMessages) rfl names entries
      rw [strangers]
      exact congrArg (Except.map _) own'

/-- Two schemas with the same remainder go side by side. -/
theorem Schema.walk_alike {s t : Schema} (same : s.unworded = t.unworded)
    (worded : s.Throughout Schema.Worded) (worded' : t.Throughout Schema.Worded)
    (blind : s.Throughout Schema.Blind) (blind' : t.Throughout Schema.Blind) (v : Value)
    (st : Store) :
    (s.walk v st).Paired Eq Eq (List.Forall₂ Violation.Alike) (t.walk v st) := by
  have first := Schema.unworded_paired.1 s worded blind v st
  have second := Schema.unworded_paired.1 t worded' blind' v st
  rw [same] at first
  exact ⟨first.result.common second.result fun _ _ _ => forall₂_alike_of_common,
    first.left.trans second.left.symm, second.store.symm.trans first.store⟩

/-- Let two schemas differ in nothing but the messages of their rules, at any depth, each of them
absent or a text, and let no custom validator look at the schema. If the run of one on some data
returns, so does that of the other, with the same verdict; both leave the same data. They find
violations under the same keys in the same order, and at each position two texts or two folded
messages with as many parts. At the top each run only labels what is found without the messages
of its own rules: a text about a property becomes the message of the rule, unless that is empty;
folded messages and the keys that are not declared stay as they are. -/
theorem Schema.validate_relabelled {s t : Schema} (same : s.unworded = t.unworded)
    (worded : s.Throughout Schema.Worded) (worded' : t.Throughout Schema.Worded)
    (blind : s.Throughout Schema.Blind) (blind' : t.Throughout Schema.Blind) {v : Value}
    {st : Store} {report : Report} (returned : (s.validate v st).result = .ok report) :
    ∃ report', (t.validate v st).result = .ok report' ∧ report'.valid = report.valid ∧
      report'.data = report.data ∧ (t.validate v st).store = (s.validate v st).store ∧
      List.Forall₂ Violation.Alike report.violations report'.violations ∧
      s.Labels v st report.violations ∧ t.Labels v st report'.violations := by
  have walked := Schema.walk_alike same worded worded' blind blind' v st
  rw [result_validate] at returned
  obtain ⟨found, own, rfl⟩ := Declaration.map_eq_ok.mp returned
  obtain ⟨found', own', alike⟩ := walked.result.exists_ok own
  refine ⟨⟨found', (t.walk v st).left⟩, ?_, ?_, walked.left.symm, walked.store, alike,
    labels_of_walk (s.throughout_iff.mp worded).1 (s.throughout_iff.mp blind).1 own,
    labels_of_walk (t.throughout_iff.mp worded').1 (t.throughout_iff.mp blind').1 own'⟩
  · rw [result_validate, own']
    rfl
  · change found'.isEmpty = found.isEmpty
    cases alike <;> rfl

end

namespace Doorkeeper

/-- Every function refuses what holds anything, and takes the note off the mapping that it stands
in. -/
scoped instance : UserCode :=
  ⟨fun _ => { Function.refusing with
    judge := fun _ v record _ st =>
      let kept := ((record.entries?).getD []).filter fun e => !e.1.equal (.text "note")
      let answer := if ((v.entries?).getD []).isEmpty then .bool true else .text "refused"
      (⟨.ok answer, record.withEntries kept, none⟩, st) }⟩

end Doorkeeper

/-- Parcels with a weight, which somebody refuses, under given messages. -/
def parcelSchema (outer inner : Option Value) : Schema :=
  ⟨[{ Rule.ofType (.text "parcel")
        (.nested
          ⟨[{ Rule.ofType (.text "weight") (.scalar .number) with message := inner }], false⟩)
      with custom := some (.function 0 "refuse"), message := outer }], false⟩

/-- A parcel whose weight is no number, beside a key that is not declared. -/
def parcelData : Value :=
  .object [(.text "parcel", .object [(.text "weight", .text "heavy")]), (.text "note", .null)]

theorem parcelSchema_worded (outer inner : String) :
    (parcelSchema (some (.text outer)) (some (.text inner))).Throughout Schema.Worded := by
  have worded {r : Rule} {s : String} (own : r.message = some (.text s)) : r.Worded := by
    rintro m given
    rw [own] at given
    exact ⟨s, (Option.some_inj.mp given).symm⟩
  refine ⟨?_, ⟨?_, trivial, trivial⟩, trivial⟩
  · exact List.forall_mem_singleton.mpr (worded rfl)
  · exact List.forall_mem_singleton.mpr (worded rfl)

open Doorkeeper in
theorem parcelSchema_blind (outer inner : Option Value) :
    (parcelSchema outer inner).Throughout Schema.Blind := by
  refine ⟨?_, ⟨?_, trivial, trivial⟩, trivial⟩
  · refine List.forall_mem_singleton.mpr ?_
    rintro f own
    cases own
    exact fun _ _ _ _ _ _ => rfl
  · exact List.forall_mem_singleton.mpr nofun

open Doorkeeper in
/-- Other messages make other labels: of a refusal, and of what is wrong with the weight. The note
is reported, and is off in the end. -/
theorem validate_relabelled_parcel :
    let s := parcelSchema (some (.text "")) (some (.text "Property weight is in grams"))
    let t := parcelSchema (some (.text "see parcel")) (some (.text ""))
    ∃ report report', (s.validate parcelData .empty).result = .ok report ∧
      (t.validate parcelData .empty).result = .ok report' ∧
      List.Forall₂ Violation.Alike report.violations report'.violations ∧
      report.messages = [.text "Property note not valid in schema", .text "refused",
        .text "Property parcel.weight is in grams"] ∧
      report'.data = .object [(.text "parcel", .object [(.text "weight", .text "heavy")])] := by
  intro s t
  obtain ⟨report, returned⟩ : ∃ report, (s.validate parcelData .empty).result = .ok report :=
    ⟨_, rfl⟩
  obtain ⟨report', returned', -, data, -, alike, -⟩ := Schema.validate_relabelled (s := s) (t := t)
    rfl (parcelSchema_worded _ _) (parcelSchema_worded _ _) (parcelSchema_blind _ _)
    (parcelSchema_blind _ _) returned
  refine ⟨report, report', returned, returned', alike, ?_, ?_⟩
  · cases returned
    rfl
  · rw [data]
    cases returned
    rfl

end DataContract
