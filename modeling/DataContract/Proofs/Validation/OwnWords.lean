/-
# Messages of users from nested records

A user words what is wrong in two ways: by the message of a rule, which takes the place of the
messages of the library, and by the text that a custom validator answers. Such a text reaches the
report of the whole run from any depth. On the way it is treated like every message of a nested
record: where it first reads like a reference to a property, the names of the properties that
lead to the record are inserted. So a text that nowhere reads so arrives as it was written, and
any other does from the outermost record only.

A rule below is met through rules of nested type. Records that are items of an array are asked
whether they are valid, and say nothing.
-/

import DataContract.Proofs.Validation.Folding
import DataContract.Validation.Findings

set_option autoImplicit false

namespace DataContract

open Declaration (map_eq_ok bind_eq_ok)

/-! ## Insertions after a mark -/

section Insertion

variable (mark : List Char)

variable {mark}

theorem insertAfterFirst_of_begins {more : List Char} (some : mark ++ more ≠ [])
    (insertion : List Char) :
    insertAfterFirst mark insertion (mark ++ more) = mark ++ insertion ++ more := by
  obtain ⟨c, rest, own⟩ := List.exists_cons_of_ne_nil some
  have begins : mark <+: c :: rest := own ▸ List.prefix_append mark more
  rw [own, insertAfterFirst, if_pos (List.isPrefixOf_iff_prefix.mpr begins), ← own, List.drop_left]

theorem insertAfterFirst_of_other {c : Char} {rest : List Char} (other : ¬ mark <+: c :: rest)
    (insertion : List Char) :
    insertAfterFirst mark insertion (c :: rest) = c :: insertAfterFirst mark insertion rest := by
  rw [insertAfterFirst, if_neg (mt List.isPrefixOf_iff_prefix.mp other)]

variable (mark)

theorem insertAfterFirst_nil (text : List Char) : insertAfterFirst mark [] text = text := by
  induction text with
  | nil => rfl
  | cons c rest ih =>
      by_cases begins : mark <+: c :: rest
      · obtain ⟨more, own⟩ := begins
        rw [← own, insertAfterFirst_of_begins (own ▸ List.cons_ne_nil c rest), List.append_nil]
      · rw [insertAfterFirst_of_other begins, ih]

/-- Up to the length of the mark, nothing is inserted. -/
theorem take_insertAfterFirst (insertion text : List Char) :
    (insertAfterFirst mark insertion text).take mark.length = text.take mark.length := by
  induction text with
  | nil => rfl
  | cons c rest ih =>
      by_cases begins : mark <+: c :: rest
      · obtain ⟨more, own⟩ := begins
        rw [← own, insertAfterFirst_of_begins (own ▸ List.cons_ne_nil c rest), List.append_assoc,
          List.take_left, List.take_left]
      · rw [insertAfterFirst_of_other begins]
        cases length : mark.length with
        | zero => rfl
        | succ n =>
            have shorter := congrArg (List.take n) ih
            rw [List.take_take, List.take_take, length, Nat.min_eq_left n.le_succ] at shorter
            rw [List.take_succ_cons, List.take_succ_cons, shorter]

/-- So an insertion does not bring the mark to the beginning. -/
theorem prefix_insertAfterFirst_iff (c : Char) (insertion rest : List Char) :
    mark <+: c :: insertAfterFirst mark insertion rest ↔ mark <+: c :: rest := by
  rw [List.prefix_iff_eq_take, List.prefix_iff_eq_take]
  cases length : mark.length with
  | zero => rfl
  | succ n =>
      have shorter := congrArg (List.take n) (take_insertAfterFirst mark insertion rest)
      rw [List.take_take, List.take_take, length, Nat.min_eq_left n.le_succ] at shorter
      rw [List.take_succ_cons, List.take_succ_cons, shorter]

/-- A later insertion stands before an earlier one, after the same mark. -/
theorem insertAfterFirst_append (later earlier text : List Char) :
    insertAfterFirst mark (later ++ earlier) text =
      insertAfterFirst mark later (insertAfterFirst mark earlier text) := by
  induction text with
  | nil => rfl
  | cons c rest ih =>
      by_cases begins : mark <+: c :: rest
      · obtain ⟨more, own⟩ := begins
        have some : mark ++ more ≠ [] := own ▸ List.cons_ne_nil c rest
        have still : mark ++ (earlier ++ more) ≠ [] := by
          intro none
          simp only [List.append_eq_nil_iff] at none
          simp [none] at some
        rw [← own, insertAfterFirst_of_begins some, insertAfterFirst_of_begins some,
          List.append_assoc mark earlier more, insertAfterFirst_of_begins still]
        simp only [List.append_assoc]
      · have still := mt (prefix_insertAfterFirst_iff mark c earlier rest).mp begins
        rw [insertAfterFirst_of_other begins, insertAfterFirst_of_other begins, ih,
          insertAfterFirst_of_other still]

/-- A text without the mark is left as it is, and no other text is. -/
theorem insertAfterFirst_eq_self_iff (marked : mark ≠ []) (insertion text : List Char) :
    insertAfterFirst mark insertion text = text ↔ insertion = [] ∨ ¬ mark <:+: text := by
  induction text with
  | nil => simp [insertAfterFirst, marked]
  | cons c rest ih =>
      rw [List.infix_cons_iff]
      by_cases begins : mark <+: c :: rest
      · obtain ⟨more, own⟩ := begins
        rw [← own, insertAfterFirst_of_begins (own ▸ List.cons_ne_nil c rest)]
        simp
      · rw [insertAfterFirst_of_other begins]
        simp [ih, begins]

end Insertion

/-- A message from below some properties, given from the outermost one: after what first reads like
a reference to a property stand their names, each with a point. -/
def messageFrom (path : List Value) (message : String) : String :=
  String.ofList <| insertAfterFirst propertyMark
    (path.flatMap fun name => name.shown.toList ++ ['.']) message.toList

theorem messageFrom_nil (message : String) : messageFrom [] message = message := by
  rw [messageFrom, List.flatMap_nil, insertAfterFirst_nil, String.ofList_toList]

/-- Folding a message from below goes one property up. -/
theorem prefixMessage_messageFrom (name : Value) (path : List Value) (message : String) :
    prefixMessage (messageFrom path message) name = messageFrom (name :: path) message := by
  rw [prefixMessage, messageFrom, messageFrom, String.toList_ofList, List.flatMap_cons,
    insertAfterFirst_append propertyMark (name.shown.toList ++ ['.'])]

/-- A message arrives as it was written from the outermost record, or if it nowhere reads like a
reference to a property. -/
theorem messageFrom_eq_self_iff (path : List Value) (message : String) :
    messageFrom path message = message ↔ path = [] ∨ ¬ propertyMark <:+: message.toList := by
  have marked : propertyMark ≠ [] := by decide
  rw [messageFrom, ← String.toList_inj, String.toList_ofList,
    insertAfterFirst_eq_self_iff propertyMark marked]
  cases path <;> simp

/-! ## Rules that a run meets -/

/-- A rule as a run comes to it: its schema, where the record stands, and the entries and the store
as the rules before have left them. -/
structure Encounter where
  rule : Rule
  schema : Schema
  home : Home
  entries : Entries
  store : Store

section

variable [UserCode]

namespace Encounter

variable (e : Encounter)

/-- The record and the store with the default of the rule. -/
def begun : Visit Entries Unit := e.rule.fill e.home e.entries e.store

/-- The value that the rule is about. -/
def value? : Option Value := e.rule.valueIn e.begun.left

/-- What the custom validator of the rule finds in a value. -/
def judged (v : Value) : Visit Entries Judged :=
  e.rule.judgeCustom e.schema e.home v e.begun.left e.begun.store

/-- What the check of the rule finds in a value as the custom validator has left it. -/
def checked (v : Value) (judged : Judged) : Visit Value (List Message) :=
  e.rule.type.check e.rule e.rule.name judged.value (e.judged v).store

/-- What the rule finds. -/
def found : Except Fault (List Violation) :=
  (e.rule.walk e.schema e.home e.entries e.store).result

/-- A custom validator of the rule is asked about a value, and answers. -/
structure Answers (v : Value) (answer : Value) (f : Callable) : Prop where
  value : e.value? = some v
  custom : e.rule.custom = some f
  answered : (f.judge e.rule.name v (e.home.value e.begun.left) e.schema e.begun.store).1.answer =
    .ok answer

/-- The rule has something to say of its own: a required value is absent, the custom validator does
not answer true, or the check finds more than what is folded from a nested record. -/
inductive Fails : Prop where
  | missing (absent : e.value? = none) (required : e.rule.required = true)
  | refused {v answer : Value} {f : Callable} (answers : e.Answers v answer f)
      (refuses : answer ≠ .bool true)
  | misfit {v : Value} {judged : Judged} {messages : List Message} {s : String}
      (value : e.value? = some v) (judges : (e.judged v).result = .ok judged)
      (checked : (e.checked v judged).result = .ok messages) (text : .text s ∈ messages)

/-- The user words what is wrong: by the message of a rule that has something to say, or by the
answer of a custom validator where the rule has no message. -/
inductive Words (m : String) : Prop where
  | message (own : e.rule.message = some (.text m)) (nonempty : m ≠ "") (fails : e.Fails)
  | answer {v : Value} {f : Callable} (none : ∀ own, e.rule.message = some own → own = .text "")
      (answers : e.Answers v (.text m) f)

end Encounter

/-- A run of a schema on a value comes to a rule below some properties, given from the outermost
one. Each of them has a nested type, and a value when the run comes to it. -/
inductive Schema.Meets : Schema → Value → Store → List Value → Encounter → Prop where
  | own {s : Schema} {v : Value} {st : Store} {home : Home} {entries : Entries} {r : Rule}
      (before after : List Rule) (record : v.home? st = some (home, entries))
      (rules : s.rules = before ++ r :: after) :
      Meets s v st []
        ⟨r, s, home, (walkRules before s home entries st).left,
          (walkRules before s home entries st).store⟩
  | nested {s inner : Schema} {v child : Value} {st : Store} {path : List Value} {e e' : Encounter}
      {judged : Judged} (here : Meets s v st [] e) (type : e.rule.type = .nested inner)
      (value : e.value? = some child) (judges : (e.judged child).result = .ok judged)
      (there : Meets inner judged.value (e.judged child).store path e') :
      Meets s v st (e.rule.name :: path) e'

end

/-! ## What is said at a rule -/

theorem mem_flattenMessages {m : Value} {violations : List Violation} :
    m ∈ flattenMessages violations ↔ ∃ v ∈ violations, m ∈ v.messages :=
  List.mem_flatMap

namespace Rule

theorem customFailures_ne_nil (r : Rule) {answer : Value} (refuses : answer ≠ .bool true) :
    r.customFailures answer ≠ [] := by
  rw [customFailures.eq_def]
  split
  · exact List.cons_ne_nil _ _
  · exact absurd rfl refuses
  · exact List.cons_ne_nil _ _

/-- The message of a rule takes the place of a message of the library. -/
theorem report_of_message {r : Rule} {m : String} (own : r.message = some (.text m))
    (nonempty : m ≠ "") (st : Store) (message : String) :
    r.report st message = .ok ⟨r.name, .text m⟩ := by
  have holds : (Value.text m).truthy = true := by simpa [Value.truthy] using nonempty
  rw [report, own]
  dsimp only [Option.map_some, Store.head]
  rw [if_pos holds]
  rfl

theorem report_of_no_message {r : Rule} (none : ∀ own, r.message = some own → own = .text "")
    (st : Store) (message : String) : r.report st message = .ok ⟨r.name, .text message⟩ := by
  rw [report]
  cases own : r.message with
  | none => rfl
  | some m =>
      cases none m own
      rfl

end Rule

section

variable [UserCode]

namespace Encounter

variable {e : Encounter} {all : List Violation}

/-- A text that the custom validator gives as a failure is reported. -/
theorem Answers.report {v answer : Value} {f : Callable} (answers : e.Answers v answer f)
    {judged : Judged} (outcome : (e.judged v).result = .ok judged) :
    ∀ text ∈ e.rule.customFailures answer, ∃ violation ∈ judged.found, ∃ st,
      e.rule.report st text = .ok violation := by
  rw [Encounter.judged, Rule.judgeCustom, answers.custom] at outcome
  have answered := answers.answered
  dsimp only at outcome
  generalize f.judge e.rule.name v (e.home.value e.begun.left) e.schema e.begun.store = judgement
    at outcome answered
  obtain ⟨own, same, outcome⟩ := bind_eq_ok.mp outcome
  cases answered.symm.trans same
  obtain ⟨found, reported, outcome⟩ := bind_eq_ok.mp outcome
  cases outcome
  intro text mem
  obtain ⟨violation, reported, own⟩ := exists_mem_of_mapM_ok reported text mem
  exact ⟨violation, reported, _, own⟩

/-- Where a rule has something to say, a text is reported. -/
theorem report_of_fails (fails : e.Fails) (found : e.found = .ok all) :
    ∃ violation ∈ all, ∃ st text, e.rule.report st text = .ok violation := by
  cases fails with
  | missing absent required =>
      have missing := Rule.found_of_absent absent found
      rw [if_pos required] at missing
      obtain ⟨violation, reported, rfl⟩ := map_eq_ok.mp missing
      exact ⟨violation, List.mem_singleton_self _, _, _, reported⟩
  | refused answers refuses =>
      obtain ⟨judged, outcome, _, checked, -, -, rfl⟩ := Rule.found_of_present answers.value found
      obtain ⟨text, mem⟩ : ∃ text, text ∈ e.rule.customFailures _ :=
        List.exists_mem_of_ne_nil _ (e.rule.customFailures_ne_nil refuses)
      obtain ⟨violation, inJudged, st, reported⟩ := answers.report outcome text mem
      exact ⟨violation, List.mem_append_left checked inJudged, st, text, reported⟩
  | misfit value judges checks text =>
      obtain ⟨judged, outcome, messages, checked, own, reported, rfl⟩ :=
        Rule.found_of_present value found
      cases judges.symm.trans outcome
      cases checks.symm.trans own
      obtain ⟨violation, inChecked, own⟩ := exists_mem_of_mapM_ok reported _ text
      exact ⟨violation, List.mem_append_right _ inChecked, _, _, own⟩

/-- The words of a user are among what the rule finds. -/
theorem mem_of_words {m : String} (words : e.Words m) (found : e.found = .ok all) :
    .text m ∈ flattenMessages all := by
  rw [mem_flattenMessages]
  cases words with
  | message own nonempty fails =>
      obtain ⟨violation, mem, st, text, reported⟩ := report_of_fails fails found
      rw [Rule.report_of_message own nonempty] at reported
      cases reported
      exact ⟨_, mem, List.mem_singleton_self _⟩
  | answer none answers =>
      obtain ⟨judged, outcome, _, checked, -, -, rfl⟩ := Rule.found_of_present answers.value found
      obtain ⟨violation, inJudged, st, reported⟩ :=
        answers.report outcome m (List.mem_singleton_self m)
      rw [Rule.report_of_no_message none] at reported
      cases reported
      exact ⟨_, List.mem_append_left checked inJudged, List.mem_singleton_self _⟩

/-- Where a rule of nested type finds something, what the run finds in the record below is there,
one property further up. -/
theorem mem_of_nested {inner : Schema} {child : Value} {judged : Judged}
    (type : e.rule.type = .nested inner) (value : e.value? = some child)
    (judges : (e.judged child).result = .ok judged)
    (record : (judged.value.home? (e.judged child).store).isSome = true)
    (found : e.found = .ok all) :
    ∃ below, (inner.walk judged.value (e.judged child).store).result = .ok below ∧
      ∀ m : String, .text m ∈ flattenMessages below →
        .text (prefixMessage m e.rule.name) ∈ flattenMessages all := by
  obtain ⟨own, outcome, messages, checked, checks, reported, rfl⟩ :=
    Rule.found_of_present value found
  cases judges.symm.trans outcome
  replace checks : (e.checked child judged).result = .ok messages := checks
  rw [Value.isSome_home?] at record
  rw [Encounter.checked, type, TypeSpec.check, record, Bool.not_true, if_neg Bool.false_ne_true]
    at checks
  obtain ⟨below, walked, folded⟩ := bind_eq_ok.mp checks
  refine ⟨below, walked, fun m mem => ?_⟩
  split at folded
  next none =>
    rw [List.isEmpty_iff.mp none] at mem
    cases mem
  · obtain ⟨whole, folds, rfl⟩ := map_eq_ok.mp folded
    obtain ⟨texts, own, rfl⟩ := foldMessages_eq_ok folds
    rw [own] at mem
    obtain ⟨_, inTexts, same⟩ := List.mem_map.mp mem
    cases same
    obtain ⟨violation, inChecked, same⟩ :=
      exists_mem_of_mapM_ok reported _ (List.mem_singleton_self _)
    cases same
    refine mem_flattenMessages.mpr ⟨_, List.mem_append_right judged.found inChecked, ?_⟩
    exact List.mem_map_of_mem (List.mem_map_of_mem inTexts)

end Encounter

/-! ## What a run says -/

/-- What a rule finds in the course of a run is among what the run finds. -/
theorem walkRules_found {before after : List Rule} {r : Rule} {s : Schema} {home : Home}
    {entries : Entries} {st : Store} {all : List Violation}
    (walked : (walkRules (before ++ r :: after) s home entries st).result = .ok all) :
    ∃ own, Encounter.found ⟨r, s, home, (walkRules before s home entries st).left,
      (walkRules before s home entries st).store⟩ = .ok own ∧ ∀ v ∈ own, v ∈ all := by
  induction before generalizing entries st all with
  | nil =>
      rw [List.nil_append, walkRules, Visit.append_result] at walked
      obtain ⟨own, found, walked⟩ := bind_eq_ok.mp walked
      obtain ⟨later, -, rfl⟩ := map_eq_ok.mp walked
      exact ⟨own, found, fun v mem => List.mem_append_left later mem⟩
  | cons b before ih =>
      rw [List.cons_append, walkRules, Visit.append_result] at walked
      obtain ⟨first, head, walked⟩ := bind_eq_ok.mp walked
      obtain ⟨others, later, rfl⟩ := map_eq_ok.mp walked
      obtain ⟨own, found, among⟩ := ih later
      refine ⟨own, ?_, fun v mem => List.mem_append_right first (among v mem)⟩
      rw [walkRules, Visit.andThen, head]
      exact found

namespace Schema

variable {s : Schema} {v : Value} {st : Store} {path : List Value} {e : Encounter}
  {all : List Violation}

/-- A run comes to rules in records only. -/
theorem Meets.record (meets : s.Meets v st path e) : (v.home? st).isSome = true := by
  induction meets with
  | own _ _ record _ => exact Option.isSome_of_eq_some record
  | nested _ _ _ _ _ ih _ => exact ih

/-- What a rule of the outermost record finds is among what the run finds. -/
theorem Meets.found (meets : s.Meets v st [] e) (walked : (s.walk v st).result = .ok all) :
    ∃ own, e.found = .ok own ∧ ∀ m ∈ flattenMessages own, m ∈ flattenMessages all := by
  cases meets with
  | own before after record rules =>
      rw [walk_result, record] at walked
      obtain ⟨ruled, outcome, rfl⟩ := map_eq_ok.mp walked
      rw [rules] at outcome
      obtain ⟨own, found, among⟩ := walkRules_found outcome
      refine ⟨own, found, fun m mem => ?_⟩
      obtain ⟨violation, inOwn, said⟩ := mem_flattenMessages.mp mem
      exact mem_flattenMessages.mpr ⟨violation, List.mem_append_right _ (among _ inOwn), said⟩

/-- The words of a user about a rule that a run comes to are among what the run finds, with the
properties inserted that lead to the rule. The induction follows them from the outermost one:
its rule folds what is found below. -/
theorem walk_words (meets : s.Meets v st path e) {m : String} (words : e.Words m)
    (walked : (s.walk v st).result = .ok all) :
    .text (messageFrom path m) ∈ flattenMessages all := by
  induction meets generalizing all with
  | own before after record rules =>
      obtain ⟨own, found, among⟩ := Meets.found (.own before after record rules) walked
      rw [messageFrom_nil]
      exact among _ (Encounter.mem_of_words words found)
  | nested here type value judges there _ ih =>
      obtain ⟨own, found, among⟩ := here.found walked
      obtain ⟨below, inside, up⟩ := Encounter.mem_of_nested type value judges there.record found
      rw [← prefixMessage_messageFrom]
      exact among _ (up _ (ih words inside))

/-- For every schema, every value, wherever it stands, and every run that returns, whatever
functions of a user do in its course: if the user words what is wrong about a rule that the run
comes to below some properties, then the report has the words among its messages, with those
properties inserted where the words first read like a reference to a property. The words are
unchanged exactly if there are no such properties, or the words nowhere read so. -/
theorem validate_reports_words {report : Report} (returned : (s.validate v st).result = .ok report)
    (meets : s.Meets v st path e) {m : String} (words : e.Words m) :
    .text (messageFrom path m) ∈ report.messages ∧
      (messageFrom path m = m ↔ path = [] ∨ ¬ propertyMark <:+: m.toList) := by
  obtain ⟨all, walked, rfl⟩ := map_eq_ok.mp returned
  exact ⟨walk_words meets words walked, messageFrom_eq_self_iff path m⟩

end Schema

end

namespace TidyHost

/-- Every function refuses a code of one letter, and takes the key `rank` off the mapping that the
code stands in. -/
scoped instance : UserCode :=
  ⟨fun _ => { Function.refusing with
    judge := fun _ v record _ st =>
      let kept := ((record.entries?).getD []).filter fun e => !e.1.equal (.text "rank")
      let answer := if v.equal (.text "x") then .text "Not a property of ours" else .bool true
      (⟨.ok answer, record.withEntries kept, none⟩, st) }⟩

end TidyHost

/-- The address of a guest. -/
def addressSchema : Schema :=
  ⟨[{ Rule.ofType (.text "city") (.scalar .text) with
      required := true, message := some (.text "Where do you live?") },
    { Rule.ofType (.text "code") (.scalar .text) with
      custom := some (.function 0 "ours") }], true⟩

/-- A booking names its guest, who tells where to write to. -/
def bookingSchema : Schema :=
  ⟨[Rule.ofType (.text "nights") (.scalar .number),
    Rule.ofType (.text "guest")
      (.nested ⟨[Rule.ofType (.text "address") (.nested addressSchema)], false⟩)], false⟩

/-- The address has no city, and its code is refused. -/
def booking : Value :=
  .object [(.text "nights", .int 2), (.text "guest", .object [(.text "address",
    .object [(.text "rank", .int 1), (.text "code", .text "x")])])]

open TidyHost in
/-- The message arrives as it was written, and the answer with the properties inserted. -/
theorem validate_reports_words_booking :
    ∃ report city code,
      (bookingSchema.validate booking .empty).result = .ok report ∧
        bookingSchema.Meets booking .empty [.text "guest", .text "address"] city ∧
        city.Words "Where do you live?" ∧
        bookingSchema.Meets booking .empty [.text "guest", .text "address"] code ∧
        code.Words "Not a property of ours" ∧
        .text "Where do you live?" ∈ report.messages ∧
        .text "Not a property guest.address.of ours" ∈ report.messages := by
  have guest : bookingSchema.Meets booking .empty [] _ := .own [_] [] rfl rfl
  have address : Schema.Meets ⟨[Rule.ofType (.text "address") (.nested addressSchema)], false⟩
      (.object [(.text "address", .object [(.text "rank", .int 1), (.text "code", .text "x")])])
      .empty [] _ :=
    .own [] [] rfl rfl
  obtain ⟨city, cityBelow, asked⟩ : ∃ e,
      bookingSchema.Meets booking .empty [.text "guest", .text "address"] e ∧
        e.Words "Where do you live?" :=
    ⟨_, guest.nested rfl rfl rfl (address.nested rfl rfl rfl (.own [] [_] rfl rfl)),
      .message rfl (by decide) (.missing rfl rfl)⟩
  obtain ⟨code, codeBelow, refused⟩ : ∃ e,
      bookingSchema.Meets booking .empty [.text "guest", .text "address"] e ∧
        e.Words "Not a property of ours" :=
    ⟨_, guest.nested rfl rfl rfl (address.nested rfl rfl rfl (.own [_] [] rfl rfl)),
      .answer nofun ⟨rfl, rfl, rfl⟩⟩
  exact ⟨_, city, code, rfl, cityBelow, asked, codeBelow, refused,
    (Schema.validate_reports_words rfl cityBelow asked).1,
    (Schema.validate_reports_words rfl codeBelow refused).1⟩

/-- A property of a child, with a message that reads like a reference to a property. -/
def echoedMessage : Value :=
  .object [(.text "child", .object [(.text "a", .object [
    (.text "type", .callable (.token .text)),
    (.text "message", .text "Every property of a child is a text")])])]

open WithoutUserCode in
/-- The words of the user about the child do not arrive as they were written. -/
theorem words_altered_on_the_way :
    ∃ s report e, Declaration.compile echoedMessage true = .ok s ∧
      (s.validate (.object [(.text "child", .object [(.text "a", .int 1)])]) Store.empty).result =
        .ok report ∧
      s.Meets (.object [(.text "child", .object [(.text "a", .int 1)])]) Store.empty
        [.text "child"] e ∧
      e.Words "Every property of a child is a text" ∧
      .text "Every property of a child is a text" ∉ report.messages := by
  let child : Schema :=
    ⟨[{ Rule.ofType (.text "a") (.scalar .text) with
        message := some (.text "Every property of a child is a text") }], false⟩
  have here : Schema.Meets ⟨[Rule.ofType (.text "child") (.nested child)], false⟩
      (.object [(.text "child", .object [(.text "a", .int 1)])]) Store.empty [] _ :=
    .own [] [] rfl rfl
  have below : child.Meets (.object [(.text "a", .int 1)]) Store.empty [] _ := .own [] [] rfl rfl
  refine ⟨_, _, _, rfl, rfl, here.nested rfl rfl rfl below, .message rfl (by decide) ?_, ?_⟩
  · exact .misfit rfl rfl rfl List.mem_cons_self
  · have told : Value.text "Every property of a child is a text" ∉
        [Value.text "Every property child.of a child is a text"] := by simp
    exact told

end DataContract
