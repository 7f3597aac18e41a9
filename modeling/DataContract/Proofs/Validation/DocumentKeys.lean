/-
# Keys of documents and keys of data

Reading a declaration turns its keys into texts, while the keys of data stay what they are.
So a schema that was declared in a document knows the texts of its keys: as many as differ,
each in the place where it came first. A key that is a text means the same in both: data
that hold a value under it are told neither that it is not declared nor that it is missing.
No other key does.
-/

import DataContract.Proofs.Schema.Compiled
import DataContract.Proofs.Schema.DocumentReading
import DataContract.Proofs.Validation.Folding
import DataContract.Validation.Findings

set_option autoImplicit false

namespace DataContract

open Declaration (bind_eq_ok map_eq_ok)

/-! ## Names that are read -/

theorem eraseDups_sublist {α : Type} [BEq α] [LawfulBEq α] (l : List α) :
    l.eraseDups.Sublist l := by
  match l with
  | [] => exact .slnil
  | a :: rest =>
      rw [List.eraseDups_cons]
      have shorter := eraseDups_sublist (rest.filter fun b => !b == a)
      exact (shorter.trans List.filter_sublist).cons_cons a
termination_by l.length
decreasing_by
  exact Nat.lt_succ_of_le (List.length_filter_le _ _)

theorem nodup_eraseDups {α : Type} [BEq α] [LawfulBEq α] (l : List α) : l.eraseDups.Nodup := by
  match l with
  | [] => exact List.nodup_nil
  | a :: rest =>
      rw [List.eraseDups_cons, List.nodup_cons]
      exact ⟨by simp, nodup_eraseDups (rest.filter fun b => !b == a)⟩
termination_by l.length
decreasing_by
  exact Nat.lt_succ_of_le (List.length_filter_le _ _)

/-- Nothing is lost exactly if nothing came twice. -/
theorem length_eraseDups_iff {α : Type} [BEq α] [LawfulBEq α] (l : List α) :
    l.eraseDups.length = l.length ↔ l.Nodup := by
  constructor
  · intro same
    rw [← (eraseDups_sublist l).eq_of_length same]
    exact nodup_eraseDups l
  · intro apart
    induction l with
    | nil => rfl
    | cons a rest ih =>
        obtain ⟨new, apartRest⟩ := List.nodup_cons.mp apart
        have kept : (rest.filter fun b => !b == a) = rest := by
          rw [List.filter_eq_self]
          intro b mem
          have differ : b ≠ a := fun same => new (same ▸ mem)
          simpa using differ
        rw [List.eraseDups_cons, kept, List.length_cons, List.length_cons, ih apartRest]

namespace Document

theorem contains_text_iff {entries : Entries} {names : List String}
    (keys : entries.keys = names.map .text) (name : String) :
    entries.contains (.text name) = true ↔ name ∈ names := by
  rw [Entries.contains, ← not_iff_not, Bool.not_eq_true, Option.isSome_eq_false_iff,
    Option.isNone_iff_eq_none, Entries.get?_eq_none_iff]
  have onKeys : (∀ e ∈ entries, e.1.equal (.text name) = false) ↔
      ∀ key ∈ entries.keys, key.equal (.text name) = false := by
    simp only [Entries.keys, List.forall_mem_map]
  rw [onKeys, keys, List.forall_mem_map]
  simp only [← Bool.not_eq_true, Value.text_equal_text]
  exact ⟨fun apart mem => apart name mem rfl, fun absent n mem same => absent (same ▸ mem)⟩

/-- The names of what is read: those there were, and then the texts of the keys, each once
and where it came first. -/
theorem keys_readEntries {order : List String} {entries : List (Value × Value)}
    {done read : Entries} (outcome : readEntries order false entries done = .ok read)
    {names : List String} (before : done.keys = names.map .text) :
    read.keys =
      (names ++ ((entries.map (·.1.shown)).filter (!names.contains ·)).eraseDups).map .text := by
  induction entries generalizing done names with
  | nil =>
      cases outcome
      simp [before]
  | cons e rest ih =>
      obtain ⟨k, v⟩ := e
      rw [readEntries] at outcome
      simp only [Bool.false_and, Bool.false_eq_true, if_false] at outcome
      obtain ⟨entry, -, outcome⟩ := bind_eq_ok.mp outcome
      have keys := Entries.keys_put done (.text k.shown) entry
      rw [List.map_cons, List.filter_cons]
      by_cases old : k.shown ∈ names
      · have there : done.contains (.text k.shown) = true := (contains_text_iff before _).mpr old
        rw [if_pos there, before] at keys
        simp [ih outcome keys, old]
      · have new : ¬ done.contains (.text k.shown) = true := old ∘ (contains_text_iff before _).mp
        rw [if_neg new, before] at keys
        have later : (done.put (.text k.shown) entry).keys = (names ++ [k.shown]).map .text := by
          simp [keys]
        rw [ih outcome later]
        simp [old, List.eraseDups_cons, List.filter_filter, Bool.and_comm, beq_eq_decide]

end Document

/-- The rules of a mapping have its keys for names, in order. -/
theorem Declaration.names_of_compileEntries {entries : List (Value × Value)} {rules : List Rule}
    (compiled : compileEntries false entries = .ok rules) :
    rules.map (·.name) = Entries.keys entries := by
  induction entries generalizing rules with
  | nil =>
      cases compiled
      rfl
  | cons e rest ih =>
      obtain ⟨key, entry⟩ := e
      rw [compileEntries] at compiled
      simp only [Bool.false_and, Bool.false_eq_true, if_false] at compiled
      obtain ⟨r, first, compiled⟩ := bind_eq_ok.mp compiled
      obtain ⟨others, later, compiled⟩ := bind_eq_ok.mp compiled
      cases compiled
      rw [List.map_cons, (compileEntry_fields first).1, ih later, Entries.keys_cons]

/-! ## Messages about values -/

/-- A text that says neither that a key is not declared nor that it is missing. -/
structure TellsOfValue (key : Value) (message : String) : Prop where
  declared : message ≠ undeclaredText key
  present : message ≠ missingText key

theorem head?_append_text {words rest : String} {first : Char}
    (there : words.toList.head? = some first) : (words ++ rest).toList.head? = some first := by
  rw [String.toList_append, List.head?_append, there, Option.some_or]

theorem head?_property (words : String) : ("Property " ++ words).toList.head? = some 'P' :=
  head?_append_text rfl

theorem head?_missingText (key : Value) : (missingText key).toList.head? = some 'M' :=
  head?_append_text rfl

/-- After the property stand other words than those for keys that are not declared. -/
theorem tellsOfValue_property {key : Value} {message : String} (words rest : String)
    (apart : ∃ second, words.toList[1]? = some second ∧ second ≠ 'n')
    (own : message = "Property " ++ key.shown ++ (words ++ rest)) : TellsOfValue key message where
  declared := by
    intro same
    have cut : words ++ rest = " not valid in schema" :=
      (String.append_right_inj ("Property " ++ key.shown)).mp (own.symm.trans same)
    have seconds := congrArg (fun s => s.toList[1]?) cut
    obtain ⟨second, there, differ⟩ := apart
    obtain ⟨long, -⟩ := List.getElem?_eq_some_iff.mp there
    simp only [String.toList_append, List.getElem?_append_left long, there] at seconds
    exact differ (Option.some.inj seconds)
  present := by
    intro same
    have heads := congrArg (fun s => s.toList.head?) (own.symm.trans same)
    simp only [String.append_assoc, head?_property, head?_missingText] at heads
    cases heads

/-- The text does not begin as those for keys that are not declared or missing do. -/
theorem tellsOfValue_other {key : Value} {message : String}
    (apart : ∃ first, message.toList.head? = some first ∧ first ≠ 'P' ∧ first ≠ 'M') :
    TellsOfValue key message where
  declared := by
    intro same
    obtain ⟨first, there, differ, -⟩ := apart
    rw [same, undeclaredText, String.append_assoc, head?_property] at there
    exact differ (Option.some.inj there).symm
  present := by
    intro same
    obtain ⟨first, there, -, differ⟩ := apart
    rw [same, head?_missingText] at there
    exact differ (Option.some.inj there).symm

theorem tellsOfValue_mismatch (key v : Value) (expected : String) :
    TellsOfValue key (mismatchText key v expected) := by
  refine tellsOfValue_property " is " (v.category ++ (", expected " ++ expected))
    ⟨'i', rfl, by decide⟩ ?_
  simp only [mismatchText, String.append_assoc]

theorem mem_failureIf {condition : Bool} {message t : String}
    (mem : t ∈ failureIf condition message) : t = message := by
  cases condition with
  | false => cases mem
  | true => exact List.mem_singleton.mp mem

namespace Rule

variable (r : Rule) (key : Value)

/-- What is wrong with a bound is told in words after the property. -/
theorem tellsOfValue_bound {words : String} (bound : String)
    (must : words.toList[1]? = some 'm') :
    TellsOfValue key ("Property " ++ key.shown ++ words ++ bound) :=
  tellsOfValue_property words bound ⟨'m', must, by decide⟩ (String.append_assoc ..)

/-- The words may go on after the bound. -/
theorem tellsOfValue_bound_more {words : String} (bound more : String)
    (must : words.toList[1]? = some 'm') :
    TellsOfValue key ("Property " ++ key.shown ++ words ++ bound ++ more) := by
  rw [String.append_assoc]
  exact tellsOfValue_bound key (bound ++ more) must

theorem textFailures_tell (s : String) : ∀ t ∈ r.textFailures key s, TellsOfValue key t := by
  intro t mem
  simp only [textFailures, List.mem_append] at mem
  rcases mem with ((own | own) | own) | own <;> rw [mem_failureIf own]
  · exact tellsOfValue_other ⟨'V', head?_append_text (head?_append_text rfl), by decide⟩
  · exact tellsOfValue_other ⟨'R', head?_append_text rfl, by decide⟩
  · exact tellsOfValue_bound_more key _ _ rfl
  · exact tellsOfValue_bound_more key _ _ rfl

theorem numberFailures_tell (n : Number) : ∀ t ∈ r.numberFailures key n, TellsOfValue key t := by
  intro t mem
  rcases List.mem_append.mp mem with own | own <;> rw [mem_failureIf own]
  · exact tellsOfValue_bound key _ rfl
  · exact tellsOfValue_bound key _ rfl

theorem lengthFailures_tell (count : Nat) :
    ∀ t ∈ r.lengthFailures key count, TellsOfValue key t := by
  intro t mem
  rcases List.mem_append.mp mem with own | own <;> rw [mem_failureIf own]
  · exact tellsOfValue_bound_more key _ _ rfl
  · exact tellsOfValue_bound_more key _ _ rfl

/-- A value that has not the shape of its kind is told of. -/
theorem tell_of_fits {fits : Except Fault Bool} {message : String}
    (tells : TellsOfValue key message) {found : List String}
    (outcome : (fits.map fun ok => failureIf (!ok) message) = .ok found) :
    ∀ t ∈ found, TellsOfValue key t := by
  cases fits with
  | error f => cases outcome
  | ok b =>
      cases outcome
      intro t mem
      rw [mem_failureIf mem]
      exact tells

theorem scalarFailures_tell {kind : Scalar} {v : Value} {found : List String}
    (outcome : r.scalarFailures key kind v = .ok found) : ∀ t ∈ found, TellsOfValue key t := by
  have mismatch := tellsOfValue_mismatch key v kind.label
  cases kind with
  | text =>
      rw [scalarFailures.eq_def] at outcome
      dsimp only at outcome
      split at outcome
      · split at outcome <;> cases outcome
        exact r.textFailures_tell key _
      · cases outcome
        exact List.forall_mem_singleton.mpr mismatch
  | number =>
      rw [scalarFailures.eq_def] at outcome
      dsimp only at outcome
      split at outcome <;> cases outcome
      · exact r.numberFailures_tell key _
      · exact List.forall_mem_singleton.mpr mismatch
  | boolean | object | function =>
      rw [scalarFailures] at outcome
      exact tell_of_fits key mismatch outcome
  | date =>
      refine tell_of_fits key ?_ outcome
      exact tellsOfValue_property " is not a valid date" "" ⟨'i', rfl, by decide⟩
        (by rw [String.append_empty])
  | uuid version =>
      refine tell_of_fits key ?_ outcome
      exact tellsOfValue_property " is not a valid " _ ⟨'i', rfl, by decide⟩
        (String.append_assoc ..)

end Rule

theorem tellsOfValue_item (key : Value) (item : TypeSpec) :
    TellsOfValue key (itemText key item) := by
  have begins : (itemText key item).toList.head? = some 'A' := by
    rw [itemText.eq_def]
    dsimp only
    split
    · exact head?_append_text (head?_append_text rfl)
    · exact head?_append_text (head?_append_text (head?_append_text (head?_append_text rfl)))
  exact tellsOfValue_other ⟨'A', begins, by decide⟩

/-- The messages of a nested record are folded, so none of them is a text. -/
theorem text_not_mem_of_fold {key : Value} {violations : List Violation} {found : List Message}
    (outcome : (if violations.isEmpty then .ok []
      else (foldMessages key (flattenMessages violations)).map ([·])) = .ok found)
    (message : String) : Message.text message ∉ found := by
  split at outcome
  · cases outcome
    simp
  · rw [foldMessages] at outcome
    obtain ⟨folded, own, rfl⟩ := map_eq_ok.mp outcome
    obtain ⟨parts, -, rfl⟩ := map_eq_ok.mp own
    simp

section

variable [UserCode]

/-- What the check of a value finds is about the value, or is folded. -/
theorem TypeSpec.check_tells {t : TypeSpec} {r : Rule} {key v : Value} {st : Store}
    {found : List Message} (outcome : (t.check r key v st).result = .ok found) :
    ∀ message, Message.text message ∈ found → TellsOfValue key message := by
  have texts {told : List String} (own : ∀ t ∈ told, TellsOfValue key t) :
      ∀ message, Message.text message ∈ told.map Message.text → TellsOfValue key message := by
    simpa using own
  have mismatch (v : Value) (expected : String) :=
    texts (List.forall_mem_singleton.mpr (tellsOfValue_mismatch key v expected))
  cases t with
  | scalar kind =>
      rw [check, Visit.ofExcept] at outcome
      obtain ⟨told, failures, rfl⟩ := map_eq_ok.mp outcome
      exact texts (r.scalarFailures_tell key failures)
  | nested s =>
      rw [check] at outcome
      split at outcome
      · cases outcome
        exact mismatch _ _
      · obtain ⟨violations, -, folded⟩ := bind_eq_ok.mp outcome
        intro message mem
        exact absurd mem (text_not_mem_of_fold folded message)
  | array item =>
      cases item with
      | none =>
          rw [check] at outcome
          split at outcome <;> cases outcome
          · exact mismatch _ _
          · exact texts (r.lengthFailures_tell key _)
      | some item =>
          rw [check] at outcome
          split at outcome
          · cases outcome
            exact mismatch _ _
          next items array =>
            obtain ⟨all, -, rfl⟩ := map_eq_ok.mp outcome
            intro message mem
            rcases List.mem_append.mp mem with length | last
            · exact texts (r.lengthFailures_tell key _) message length
            · cases all with
              | true => cases last
              | false =>
                  obtain rfl := Message.text.inj (List.mem_singleton.mp last)
                  exact tellsOfValue_item key item

/-! ## Violations of rules -/

namespace Rule

variable {r : Rule} {s : Schema} {home : Home} {entries : Entries} {st : Store}
  {found : List Violation}

omit [UserCode] in
theorem report_key {message : String} {violation : Violation}
    (outcome : r.report st message = .ok violation) : violation.key = r.name := by
  rw [report] at outcome
  split at outcome
  · cases outcome
    rfl
  · split at outcome
    · obtain ⟨m, -, rfl⟩ := map_eq_ok.mp outcome
      rfl
    · cases outcome
      rfl

omit [UserCode] in
theorem reportAll_key {messages : List Message} (outcome : r.reportAll st messages = .ok found) :
    ∀ violation ∈ found, violation.key = r.name := by
  intro violation mem
  obtain ⟨message, -, own⟩ := mem_of_mapM_ok outcome violation mem
  cases message with
  | text t => exact report_key own
  | folded parts =>
      cases own
      rfl

omit [UserCode] in
/-- Without a message of its own a rule reports what it is given. -/
theorem reportAll_of_no_message (silent : r.message = none) {messages : List Message}
    (outcome : r.reportAll st messages = .ok found) :
    ∀ violation ∈ found, violation.message ∈ messages := by
  intro violation mem
  obtain ⟨message, given, own⟩ := mem_of_mapM_ok outcome violation mem
  cases message with
  | text t =>
      simp only [report, silent, Option.map_none, Except.ok.injEq] at own
      exact own ▸ given
  | folded parts =>
      simp only [Except.ok.injEq] at own
      exact own ▸ given

/-- Without a custom validator a rule finds that a required value is absent, or what the check of
its value finds. -/
theorem found_without_custom (custom : r.custom = none)
    (outcome : (r.walk s home entries st).result = .ok found) :
    (r.valueIn (r.fill home entries st).left = none ∧
      (found = [] ∨
        ∃ now text violation, r.report now text = .ok violation ∧ found = [violation])) ∨
    ∃ v messages now later, r.valueIn (r.fill home entries st).left = some v ∧
      (r.type.check r r.name v now).result = .ok messages ∧
      r.reportAll later messages = .ok found := by
  cases value : r.valueIn (r.fill home entries st).left with
  | none =>
      have missing := found_of_absent value outcome
      split at missing
      · obtain ⟨violation, reported, rfl⟩ := map_eq_ok.mp missing
        exact .inl ⟨rfl, .inr ⟨_, _, violation, reported, rfl⟩⟩
      · cases missing
        exact .inl ⟨rfl, .inl rfl⟩
  | some v =>
      obtain ⟨judged, judges, messages, checked, checks, reported, rfl⟩ :=
        found_of_present value outcome
      rw [judgeCustom, custom] at judges
      cases judges
      exact .inr ⟨v, messages, _, _, rfl, checks, reported⟩

/-- The violations of a rule are about its property. -/
theorem walk_key (custom : r.custom = none)
    (outcome : (r.walk s home entries st).result = .ok found) :
    ∀ violation ∈ found, violation.key = r.name := by
  rcases found_without_custom custom outcome with
    ⟨-, rfl | ⟨_, _, violation, reported, rfl⟩⟩ | ⟨_, _, _, _, -, -, reported⟩
  · simp
  · exact List.forall_mem_singleton.mpr (report_key reported)
  · exact reportAll_key reported

/-- Where a value is there, a rule without a message of its own tells of the value. -/
theorem walk_tells (custom : r.custom = none) (silent : r.message = none)
    (owned : home.isOwned = true) {v : Value} (there : entries.get? r.name = some v)
    (present : v ≠ .null) (outcome : (r.walk s home entries st).result = .ok found) :
    ∀ violation ∈ found, ∀ message, violation.message = .text message →
      TellsOfValue r.name message := by
  have valued := (valueIn_eq_some_iff r entries v).mpr ⟨there, present⟩
  have begun : r.valueIn (r.fill home entries st).left = some v := by
    rw [fill_of_owned owned, Visit.ofExcept, (start_of_present valued home.writable st).2, valued]
  rcases found_without_custom custom outcome with ⟨absent, -⟩ | ⟨_, _, _, _, -, checked, reported⟩
  · cases begun.symm.trans absent
  · intro violation mem message text
    exact TypeSpec.check_tells checked message
      (text ▸ reportAll_of_no_message silent reported violation mem)

end Rule

/-- The violations of rules are about their properties. -/
theorem walkRules_key {rules : List Rule} (custom : ∀ r ∈ rules, r.custom = none) {s : Schema}
    {home : Home} {entries : Entries} {st : Store} {found : List Violation}
    (outcome : (walkRules rules s home entries st).result = .ok found) :
    ∀ violation ∈ found, ∃ r ∈ rules, violation.key = r.name := by
  induction rules generalizing entries st found with
  | nil =>
      cases outcome
      simp
  | cons r rest ih =>
      rw [walkRules, Visit.append_result] at outcome
      obtain ⟨first, head, outcome⟩ := bind_eq_ok.mp outcome
      obtain ⟨later, tail, rfl⟩ := map_eq_ok.mp outcome
      intro violation mem
      rcases List.mem_append.mp mem with inFirst | inLater
      · exact ⟨r, List.mem_cons_self, Rule.walk_key (custom r List.mem_cons_self) head _ inFirst⟩
      · obtain ⟨q, inRest, own⟩ :=
          ih (fun q mem => custom q (List.mem_cons_of_mem r mem)) tail violation inLater
        exact ⟨q, List.mem_cons_of_mem r inRest, own⟩

/-- Where a value is there under a name, the rules tell of the value. -/
theorem walkRules_tell {rules : List Rule} {names : List String}
    (named : rules.map (·.name) = names.map .text) (apart : names.Nodup)
    (custom : ∀ r ∈ rules, r.custom = none) {name : String}
    (silent : ∀ r ∈ rules, r.name = .text name → r.message = none) {entries : Entries} {v : Value}
    (there : entries.get? (.text name) = some v) (present : v ≠ .null) {s : Schema}
    {home : Home} (owned : home.isOwned = true) {st : Store} {found : List Violation}
    (outcome : (walkRules rules s home entries st).result = .ok found) :
    ∀ violation ∈ found, violation.key = .text name →
      ∀ message, violation.message = .text message → TellsOfValue (.text name) message := by
  induction rules generalizing names entries st found with
  | nil =>
      cases outcome
      simp
  | cons r rest ih =>
      cases names with
      | nil => cases named
      | cons own others =>
          rw [List.map_cons, List.map_cons, List.cons.injEq] at named
          obtain ⟨ownName, namedRest⟩ := named
          obtain ⟨new, apartRest⟩ := List.nodup_cons.mp apart
          have customOwn := custom r List.mem_cons_self
          rw [walkRules, Visit.append_result] at outcome
          obtain ⟨first, head, outcome⟩ := bind_eq_ok.mp outcome
          obtain ⟨later, tail, rfl⟩ := map_eq_ok.mp outcome
          intro violation mem about message text
          rcases List.mem_append.mp mem with inFirst | inLater
          · have same : r.name = .text name :=
              (Rule.walk_key customOwn head violation inFirst).symm.trans about
            rw [← same] at there ⊢
            exact Rule.walk_tells customOwn (silent r List.mem_cons_self same) owned there present
              head violation inFirst message text
          · have customRest := fun q mem => custom q (List.mem_cons_of_mem r mem)
            have silentRest := fun q mem => silent q (List.mem_cons_of_mem r mem)
            -- The first rule has another name, so it left the value where it was.
            have other : own ≠ name := by
              rintro rfl
              obtain ⟨q, inRest, isName⟩ := walkRules_key customRest tail violation inLater
              have later : Value.text own ∈ others.map .text := by
                rw [← namedRest, ← about, isName]
                exact List.mem_map_of_mem inRest
              obtain ⟨n, inOthers, same⟩ := List.mem_map.mp later
              exact new (Value.text.inj same ▸ inOthers)
            have kept : (r.walk s home entries st).left.get? (.text name) = some v := by
              rw [← there]
              refine (Rule.walk_onlyUnder (by rw [ownName]; rfl) customOwn s owned entries
                st).get?_eq (.text name) (.text name) rfl fun n isOwn same => other ?_
              rw [List.mem_singleton.mp isOwn, ownName] at same
              exact Identity.text.inj (Option.some.inj same)
            exact ih namedRest apartRest customRest silentRest kept tail violation inLater about
              message text

/-! ## Schemas of documents -/

omit [UserCode] in
theorem Value.text_equal_iff (name : String) (v : Value) :
    (Value.text name).equal v = true ↔ v = .text name := by
  cases v with
  | text other => rw [Value.text_equal_text, Value.text.injEq, eq_comm]
  | _ => exact iff_of_false (fun same => nomatch same) (fun same => nomatch same)

omit [UserCode] in
/-- A schema whose names are texts declares these texts and nothing else. -/
theorem Schema.declares_iff_of_names {s : Schema} {names : List String}
    (named : s.rules.map (·.name) = names.map .text) (key : Value) :
    s.declares key = true ↔ ∃ name ∈ names, key = .text name := by
  have onNames : s.declares key = (s.rules.map (·.name)).any (·.equal key) := by
    rw [declares, List.any_map]
    rfl
  rw [onNames, named, List.any_map, List.any_eq_true]
  simp only [Function.comp_apply, Value.text_equal_iff]

/-- What a schema tells of a value that it finds under the text that names a rule. -/
theorem Schema.validate_tells {s : Schema} {names : List String}
    (named : s.rules.map (·.name) = names.map .text) (apart : names.Nodup)
    (custom : ∀ r ∈ s.rules, r.custom = none) {name : String} (declared : name ∈ names)
    (silent : ∀ r ∈ s.rules, r.name = .text name → r.message = none) {held : Entries} {v : Value}
    (there : held.get? (.text name) = some v) (present : v ≠ .null) {st : Store} {report : Report}
    (outcome : (s.validate (.object held) st).result = .ok report) :
    ∀ violation ∈ report.violations, violation.key = .text name →
      ∀ message, violation.message = .text message → TellsOfValue (.text name) message := by
  obtain ⟨violations, walked, rfl⟩ := map_eq_ok.mp outcome
  rw [walk_result] at walked
  obtain ⟨found, ofRules, rfl⟩ := map_eq_ok.mp walked
  intro violation mem about message text
  rcases List.mem_append.mp mem with undeclared | inFound
  · exfalso
    rw [Schema.undeclared] at undeclared
    split at undeclared
    · cases undeclared
    · obtain ⟨key, unknown, rfl⟩ := List.mem_map.mp undeclared
      have known := (declares_iff_of_names named key).mpr ⟨name, declared, about⟩
      simp [known] at unknown
  · exact walkRules_tell named apart custom silent there present Home.isOwned_object ofRules
      violation inFound about message text

/-- The schema of a document has the texts of its keys for names, each once. So it declares
the keys that are texts, and none that is not; and data with a value under such a key are
told neither that it is not declared nor that it is missing, unless the document says so in a
message of its own. -/
theorem Document.declares_texts {order : List String} {raw : Value} {entries read : Entries}
    {strict : Bool} {s : Schema} (mapping : raw.entries? = some entries)
    (outcome : parse order raw = .ok read)
    (compiled : Declaration.compile (.object read) strict = .ok s) :
    s.rules.map (·.name) = (entries.map (·.1.shown)).eraseDups.map .text ∧
    (s.rules.length = entries.length ↔ (entries.map (·.1.shown)).Nodup) ∧
    (∀ e ∈ entries, s.declares (.text e.1.shown) = true ∧
      (s.declares e.1 = true ↔ ∃ name, e.1 = .text name)) ∧
    ∀ name, (∃ e ∈ entries, e.1 = .text name) → (∀ r ∈ s.rules, r.custom = none) →
      (∀ r ∈ s.rules, r.name = .text name → r.message = none) →
      ∀ held v st report, Entries.get? held (.text name) = some v → v ≠ .null →
        (s.validate (.object held) st).result = .ok report →
        ∀ violation ∈ report.violations, violation.key = .text name →
          ∀ message, violation.message = .text message →
            message ≠ undeclaredText (.text name) ∧ message ≠ missingText (.text name) := by
  have named : s.rules.map (·.name) = (entries.map (·.1.shown)).eraseDups.map .text := by
    rw [parse, mapping] at outcome
    rw [Declaration.compile_of_declared strict rfl] at compiled
    obtain ⟨rules, own, rfl⟩ := map_eq_ok.mp compiled
    have nothing : Entries.keys [] = List.map Value.text [] := rfl
    rw [Declaration.names_of_compileEntries own, keys_readEntries outcome nothing, List.nil_append,
      List.filter_eq_self.mpr (by simp)]
  have apart := nodup_eraseDups (entries.map (·.1.shown))
  have declares (key : Value) : s.declares key = true ↔ ∃ e ∈ entries, key = .text e.1.shown := by
    rw [Schema.declares_iff_of_names named]
    simp
  refine ⟨named, ?_, fun e mem => ⟨?_, ?_⟩, ?_⟩
  · have length := congrArg List.length named
    rw [List.length_map, List.length_map] at length
    rw [length, ← length_eraseDups_iff, List.length_map]
  · exact (declares _).mpr ⟨e, mem, rfl⟩
  · rw [declares]
    constructor
    · rintro ⟨other, -, own⟩
      exact ⟨_, own⟩
    · rintro ⟨name, own⟩
      exact ⟨e, mem, by rw [own, Value.shown]⟩
  · rintro name ⟨e, mem, isName⟩ custom silent held v st report there present reported violation
      found about message text
    have declared : name ∈ (entries.map (·.1.shown)).eraseDups := by
      rw [List.mem_eraseDups]
      exact List.mem_map.mpr ⟨e, mem, by rw [isName, Value.shown]⟩
    have tells := s.validate_tells named apart custom declared silent there present reported
      violation found about message text
    exact ⟨tells.declared, tells.present⟩

end

/-- A document with a text and a number for keys. -/
def numberedDocument : Value := .object [(.text "name", .text "string"), (.int 1, .text "number")]

open WithoutUserCode in
/-- Both keys are declared as texts, so each of two data with a value under `name` is told of that
value only. -/
theorem declares_texts_numberedDocument :
    ∃ entries read s, numberedDocument.entries? = some entries ∧
      Document.parse Document.defaultMetaOrder numberedDocument = .ok read ∧
      Declaration.compile (.object read) true = .ok s ∧
      s.rules.map (·.name) = [.text "name", .text "1"] ∧ s.rules.length = entries.length ∧
      s.declares (.text "name") = true ∧ s.declares (.text "1") = true ∧
      s.declares (.int 1) = false ∧
      ∃ report, (s.validate (.object [(.text "name", .int 7), (.int 1, .int 2)]) .empty).result =
          .ok report ∧
        report.messages = [.text (undeclaredText (.int 1)),
          .text "Property name is number, expected string", .text (missingText (.text "1"))] ∧
        ∀ violation ∈ report.violations, violation.key = .text "name" →
          ∀ message, violation.message = .text message →
            message ≠ undeclaredText (.text "name") ∧ message ≠ missingText (.text "name") := by
  have mapping : numberedDocument.entries? =
      some [(.text "name", .text "string"), (.int 1, .text "number")] := rfl
  obtain ⟨read, s, parsed, compiled⟩ : ∃ read s,
      Document.parse Document.defaultMetaOrder numberedDocument = .ok read ∧
        Declaration.compile (.object read) true = .ok s := ⟨_, _, rfl, rfl⟩
  obtain ⟨named, count, declared, tells⟩ := Document.declares_texts mapping parsed compiled
  rw [List.forall_mem_cons, List.forall_mem_singleton] at declared
  obtain ⟨⟨name, -⟩, one, number⟩ := declared
  have bare : ∀ r ∈ s.rules, r.custom = none ∧ r.message = none := by
    cases parsed
    cases compiled
    simp [Declaration.requiredRule, Rule.ofType]
  obtain ⟨report, reported, messages⟩ : ∃ report,
      (s.validate (.object [(.text "name", .int 7), (.int 1, .int 2)]) .empty).result =
        .ok report ∧
      report.messages = [.text (undeclaredText (.int 1)),
        .text "Property name is number, expected string", .text (missingText (.text "1"))] := by
    cases parsed
    cases compiled
    exact ⟨_, rfl, rfl⟩
  refine ⟨_, read, s, mapping, parsed, compiled, named, count.mpr (by decide), name, one, ?_,
    report, reported, messages, ?_⟩
  · rw [← Bool.not_eq_true, number]
    simp
  · exact tells "name" ⟨_, List.mem_cons_self, rfl⟩ (fun r mem => (bare r mem).1)
      (fun r mem _ => (bare r mem).2) _ (.int 7) .empty report rfl nofun reported

open WithoutUserCode in
/-- A number that is a key of a document is not declared, so data under it are told that it
is not valid and that its text is missing; and two keys with one text declare one property. -/
theorem number_key_not_declared :
    (∃ read s,
      Document.parse Document.defaultMetaOrder (.object [(.int 1, .text "string")]) = .ok read ∧
      Declaration.compile (.object read) true = .ok s ∧ s.declares (.int 1) = false ∧
      ∃ report, (s.validate (.object [(.int 1, .text "x")]) Store.empty).result = .ok report ∧
        report.messages = [.text (undeclaredText (.int 1)), .text (missingText (.text "1"))]) ∧
    ∃ read s, Document.parse Document.defaultMetaOrder
        (.object [(.int 1, .text "string"), (.text "1", .text "number")]) = .ok read ∧
      Declaration.compile (.object read) true = .ok s ∧ s.rules.length = 1 :=
  ⟨⟨_, _, rfl, rfl, rfl, _, rfl, rfl⟩, _, _, rfl, rfl, rfl⟩

end DataContract
