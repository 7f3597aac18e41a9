/-
# What folding makes of messages

The violations of a nested record are folded into one message of the property that holds the
record. Only texts can be folded; then all of them are there again, in the same order, each with
its property reference prefixed. So every part of a folded message is a text. If the rules of a
schema have no messages but texts, whatever their custom validators answer, then all that a run
finds can be folded.
-/

import DataContract.Proofs.Schema.Grammar
import DataContract.Proofs.Validation.Speech

set_option autoImplicit false

namespace DataContract

open Declaration (map_eq_ok bind_eq_ok)

theorem mem_of_mapM_ok {ε α β : Type} {f : α → Except ε β} {items : List α} {out : List β}
    (outcome : items.mapM f = .ok out) : ∀ b ∈ out, ∃ a ∈ items, f a = .ok b := by
  induction items generalizing out with
  | nil =>
      cases outcome
      simp
  | cons a rest ih =>
      rw [List.mapM_cons] at outcome
      obtain ⟨b, own, outcome⟩ := bind_eq_ok.mp outcome
      obtain ⟨others, later, outcome⟩ := bind_eq_ok.mp outcome
      cases outcome
      refine List.forall_mem_cons.mpr ⟨⟨a, List.mem_cons_self, own⟩, fun c mem => ?_⟩
      obtain ⟨x, inRest, same⟩ := ih later c mem
      exact ⟨x, List.mem_cons_of_mem a inRest, same⟩

/-- Each of some elements that together become something has become a part of it. -/
theorem exists_mem_of_mapM_ok {ε α β : Type} {f : α → Except ε β} {items : List α}
    {out : List β} (outcome : items.mapM f = .ok out) : ∀ a ∈ items, ∃ b ∈ out, f a = .ok b := by
  induction items generalizing out with
  | nil => simp
  | cons a rest ih =>
      rw [List.mapM_cons] at outcome
      obtain ⟨b, own, outcome⟩ := bind_eq_ok.mp outcome
      obtain ⟨others, later, outcome⟩ := bind_eq_ok.mp outcome
      cases outcome
      refine List.forall_mem_cons.mpr ⟨⟨b, List.mem_cons_self, own⟩, fun x mem => ?_⟩
      obtain ⟨c, inOthers, same⟩ := ih later x mem
      exact ⟨c, List.mem_cons_of_mem b inOthers, same⟩

/-! ## Texts -/

/-- Only a text has a property reference. -/
theorem isText_of_prefixPart {key v part : Value} (prefixed : prefixPart key v = .ok part) :
    v.isText = true := by
  cases v with
  | text s => rfl
  | callable f => cases f <;> cases prefixed
  | _ => cases prefixed

theorem exists_texts_of_isText {messages : List Value} (texts : ∀ m ∈ messages, m.isText = true) :
    ∃ own : List String, messages = own.map .text := by
  induction messages with
  | nil => exact ⟨[], rfl⟩
  | cons m rest ih =>
      obtain ⟨own, rfl⟩ := ih fun x mem => texts x (List.mem_cons_of_mem m mem)
      cases m with
      | text s => exact ⟨s :: own, rfl⟩
      | _ => cases texts _ List.mem_cons_self

/-- Texts are folded by prefixing each. -/
theorem foldMessages_texts (key : Value) (texts : List String) :
    foldMessages key (texts.map .text) =
      .ok (.folded ((texts.map (prefixMessage · key)).map .text)) := by
  have each : (texts.map Value.text).mapM (prefixPart key) =
      .ok ((texts.map (prefixMessage · key)).map .text) := by
    induction texts with
    | nil => rfl
    | cons t rest ih =>
        rw [List.map_cons, List.mapM_cons, ih]
        rfl
  rw [foldMessages, each]
  rfl

/-- Nothing but texts can be folded. -/
theorem foldMessages_eq_ok {key : Value} {messages : List Value} {m : Message}
    (folded : foldMessages key messages = .ok m) :
    ∃ texts : List String, messages = texts.map .text ∧
      m = .folded ((texts.map (prefixMessage · key)).map .text) := by
  obtain ⟨parts, outcome, -⟩ := map_eq_ok.mp folded
  have texts : ∀ m ∈ messages, m.isText = true := by
    intro m mem
    obtain ⟨part, -, prefixed⟩ := exists_mem_of_mapM_ok outcome m mem
    exact isText_of_prefixPart prefixed
  obtain ⟨own, rfl⟩ := exists_texts_of_isText texts
  rw [foldMessages_texts] at folded
  exact ⟨own, rfl, (Except.ok.inj folded).symm⟩

theorem Message.spoken_folded (texts : List String) :
    (Message.folded (texts.map .text)).Spoken := by
  intro part mem
  obtain ⟨s, -, rfl⟩ := List.mem_map.mp mem
  rfl

/-- Violations with spoken messages can be folded. -/
theorem foldMessages_of_spoken (key : Value) {violations : List Violation}
    (spoken : ∀ v ∈ violations, v.message.Spoken) :
    ∃ m, foldMessages key (flattenMessages violations) = .ok m := by
  obtain ⟨texts, own⟩ := exists_texts_of_isText (isText_of_mem_flattenMessages spoken)
  exact ⟨_, own ▸ foldMessages_texts key texts⟩

/-! ## What a run finds -/

theorem Visit.andThen_eq_ok {σ α β : Type} {first : Visit σ α} {next : α → σ → Store → Visit σ β}
    {b : β} :
    (first.andThen next).result = .ok b ↔
      ∃ a, first.result = .ok a ∧ (next a first.left first.store).result = .ok b := by
  rw [andThen]
  cases outcome : first.result <;> simp

theorem Value.isMapping_eq (v : Value) : v.isMapping = v.entries?.isSome := by
  cases v <;> rfl

theorem Value.isSome_home? (v : Value) (st : Store) :
    (v.home? st).isSome = (st.head v).isMapping := by
  cases v with
  | shared cell => rw [isMapping_eq, home?, Option.isSome_map]
  | _ => rfl

theorem Walk.ofEntries_result
    (walk : Home → Entries → Store → Visit Entries (List Violation))
    (v : Value) (st : Store) :
    (Walk.ofEntries walk v st).result =
      match v.home? st with
      | some (home, entries) => (walk home entries st).result
      | none => .ok [.notARecord] := by
  rw [ofEntries]
  cases v.home? st <;> rfl

/-- A rule whose message, if it has one, is a text. -/
def Rule.Worded (r : Rule) : Prop := ∀ m, r.message = some m → ∃ s, m = .text s

/-- A schema of such rules. -/
def Schema.Worded (s : Schema) : Prop := ∀ r ∈ s.rules, r.Worded

theorem Message.spoken_texts (found : List String) : ∀ m ∈ found.map Message.text, m.Spoken := by
  intro m mem
  obtain ⟨s, -, rfl⟩ := List.mem_map.mp mem
  trivial

section

variable [UserCode]

/-- What a run finds in a record: the keys that are not declared, and what its rules find. -/
theorem Schema.walk_result (s : Schema) (v : Value) (st : Store) :
    (s.walk v st).result =
      match v.home? st with
      | some (home, entries) =>
        (walkRules s.rules s home entries st).result.map (s.undeclared entries ++ ·)
      | none => .ok [.notARecord] := by
  rw [walk_eq, Walk.ofEntries_result]
  cases v.home? st with
  | none => rfl
  | some found => exact s.walkEntries_result found.1 found.2 st

namespace Rule

variable {r : Rule} {s : Schema} {home : Home} {entries : Entries} {st : Store}
  {found : List Violation}

/-- What a rule finds where its value is absent: that it is, if it is required. -/
theorem found_of_absent (absent : r.valueIn (r.fill home entries st).left = none)
    (walked : (r.walk s home entries st).result = .ok found) :
    (if r.required then
      (r.report (r.fill home entries st).store (missingText r.name)).map ([·])
    else .ok []) = .ok found := by
  rw [walk_eq] at walked
  obtain ⟨-, -, walked⟩ := Visit.andThen_eq_ok.mp walked
  rw [absent] at walked
  exact walked

/-- What a rule finds in a present value: what its custom validator finds, then the messages of its
check. -/
theorem found_of_present {v : Value} (present : r.valueIn (r.fill home entries st).left = some v)
    (walked : (r.walk s home entries st).result = .ok found) :
    let begun := r.fill home entries st
    let judging := r.judgeCustom s home v begun.left begun.store
    ∃ judged, judging.result = .ok judged ∧
      let checking := (r.type.check r r.name judged.value judging.store).settle
        (home.putBack r.name judged.value judged.inPlace judging.left)
      ∃ messages checked, checking.result = .ok messages ∧
        r.reportAll checking.store messages = .ok checked ∧ found = judged.found ++ checked := by
  rw [walk_eq] at walked
  obtain ⟨-, -, walked⟩ := Visit.andThen_eq_ok.mp walked
  rw [present] at walked
  obtain ⟨judged, outcome, walked⟩ := Visit.andThen_eq_ok.mp walked
  obtain ⟨checked, reported, rfl⟩ := map_eq_ok.mp walked
  obtain ⟨messages, checks, reported⟩ := bind_eq_ok.mp reported
  exact ⟨judged, outcome, messages, checked, checks, reported, rfl⟩

end Rule

/-- The messages of a check are texts, or folded texts. -/
theorem TypeSpec.check_spoken {t : TypeSpec} {r : Rule} {key v : Value} {st : Store}
    {messages : List Message} (checked : (t.check r key v st).result = .ok messages) :
    ∀ m ∈ messages, m.Spoken := by
  cases t with
  | scalar kind =>
      obtain ⟨found, -, rfl⟩ := map_eq_ok.mp checked
      exact Message.spoken_texts found
  | nested s =>
      rw [check] at checked
      split at checked
      · cases checked
        exact Message.spoken_texts [_]
      · obtain ⟨violations, -, folded⟩ := bind_eq_ok.mp checked
        split at folded
        · cases folded
          exact Message.spoken_texts []
        · obtain ⟨m, own, rfl⟩ := map_eq_ok.mp folded
          obtain ⟨parts, -, rfl⟩ := foldMessages_eq_ok own
          exact List.forall_mem_singleton.mpr (Message.spoken_folded _)
  | array item =>
      cases item with
      | none =>
          rw [check] at checked
          split at checked <;> cases checked
          · exact Message.spoken_texts [_]
          · exact Message.spoken_texts _
      | some item =>
          rw [check] at checked
          split at checked
          · cases checked
            exact Message.spoken_texts [_]
          · obtain ⟨all, -, rfl⟩ := map_eq_ok.mp checked
            refine List.forall_mem_append.mpr ⟨Message.spoken_texts _, ?_⟩
            cases all with
            | true => exact Message.spoken_texts []
            | false => exact Message.spoken_texts [_]

end

/-! ## What holds of all messages -/

section Satisfies

variable {P : Message → Prop} (texts : ∀ s, P (.text s))

include texts

namespace Rule

variable {r : Rule} (worded : r.Worded) {st : Store}

include worded

/-- What holds of texts holds of what a rule reports. -/
theorem report_satisfies {message : String} {violation : Violation}
    (reported : r.report st message = .ok violation) : P violation.message := by
  rw [report] at reported
  cases own : r.message with
  | none =>
      rw [own] at reported
      cases reported
      exact texts _
  | some m =>
      obtain ⟨s, rfl⟩ := worded m own
      rw [own] at reported
      dsimp only [Option.map_some, Store.head] at reported
      split at reported <;> cases reported <;> exact texts _

theorem reportAll_satisfies {messages : List Message} (given : ∀ m ∈ messages, P m)
    {found : List Violation} (reported : r.reportAll st messages = .ok found) :
    ∀ v ∈ found, P v.message := by
  intro violation mem
  obtain ⟨message, inMessages, own⟩ := mem_of_mapM_ok reported violation mem
  cases message with
  | text s => exact report_satisfies texts worded own
  | folded parts =>
      cases own
      exact given _ inMessages

variable [UserCode]

/-- A custom validator finds texts. -/
theorem judgeCustom_satisfies {s : Schema} {home : Home} {v : Value} {entries : Entries}
    {judged : Judged} (outcome : (r.judgeCustom s home v entries st).result = .ok judged) :
    ∀ v ∈ judged.found, P v.message := by
  rw [judgeCustom] at outcome
  split at outcome
  · cases outcome
    simp
  · obtain ⟨answer, -, outcome⟩ := bind_eq_ok.mp outcome
    obtain ⟨found, reported, outcome⟩ := bind_eq_ok.mp outcome
    cases outcome
    intro violation mem
    obtain ⟨message, -, own⟩ := mem_of_mapM_ok reported violation mem
    exact report_satisfies texts worded own

/-- What holds of the messages of its check holds of what a rule finds. -/
theorem walk_satisfies
    (checked : ∀ v st messages, (r.type.check r r.name v st).result = .ok messages →
      ∀ m ∈ messages, P m)
    {s : Schema} {home : Home} {entries : Entries} {found : List Violation}
    (walked : (r.walk s home entries st).result = .ok found) : ∀ v ∈ found, P v.message := by
  cases value : r.valueIn (r.fill home entries st).left with
  | none =>
      have missing := found_of_absent value walked
      split at missing
      · obtain ⟨violation, reported, rfl⟩ := map_eq_ok.mp missing
        exact List.forall_mem_singleton.mpr (report_satisfies texts worded reported)
      · cases missing
        simp
  | some v =>
      obtain ⟨judged, judges, messages, found', checks, reported, rfl⟩ :=
        found_of_present value walked
      exact List.forall_mem_append.mpr ⟨judgeCustom_satisfies texts worded judges,
        reportAll_satisfies texts worded (checked _ _ _ checks) reported⟩

end Rule

variable [UserCode]

theorem walkRules_satisfies {rules : List Rule} (worded : ∀ r ∈ rules, r.Worded)
    (checked : ∀ r ∈ rules, ∀ v st messages, (r.type.check r r.name v st).result = .ok messages →
      ∀ m ∈ messages, P m)
    {s : Schema} {home : Home} {entries : Entries} {st : Store} {found : List Violation}
    (walked : (walkRules rules s home entries st).result = .ok found) :
    ∀ v ∈ found, P v.message := by
  induction rules generalizing entries st found with
  | nil =>
      cases walked
      simp
  | cons r rest ih =>
      rw [walkRules, Visit.append_result] at walked
      obtain ⟨first, head, walked⟩ := bind_eq_ok.mp walked
      obtain ⟨later, tail, rfl⟩ := map_eq_ok.mp walked
      rw [List.forall_mem_cons] at worded checked
      exact List.forall_mem_append.mpr
        ⟨Rule.walk_satisfies texts worded.1 checked.1 head, ih worded.2 checked.2 tail⟩

/-- What holds of texts and of the messages of the checks holds of all that a run finds. -/
theorem Schema.walk_satisfies {s : Schema} (worded : s.Worded)
    (checked : ∀ r ∈ s.rules, ∀ v st messages,
      (r.type.check r r.name v st).result = .ok messages → ∀ m ∈ messages, P m)
    {v : Value} {st : Store} {found : List Violation} (walked : (s.walk v st).result = .ok found) :
    ∀ v ∈ found, P v.message := by
  rw [walk_result] at walked
  split at walked
  next home entries _ =>
    obtain ⟨ruled, own, rfl⟩ := map_eq_ok.mp walked
    refine List.forall_mem_append.mpr
      ⟨fun violation mem => ?_, walkRules_satisfies texts worded checked own⟩
    rw [undeclared] at mem
    split at mem
    · cases mem
    · obtain ⟨key, -, rfl⟩ := List.mem_map.mp mem
      exact texts _
  · cases walked
    exact List.forall_mem_singleton.mpr (texts _)

end Satisfies

/-- All that a run finds can be folded, if the messages of its rules can be: what lies below has
been folded already. -/
theorem Schema.walk_spoken [UserCode] {s : Schema} (worded : s.Worded) {v : Value} {st : Store}
    {found : List Violation} (walked : (s.walk v st).result = .ok found) :
    ∀ v ∈ found, v.message.Spoken :=
  walk_satisfies (fun _ => trivial) worded (fun _ _ _ _ _ => TypeSpec.check_spoken) walked

end DataContract
