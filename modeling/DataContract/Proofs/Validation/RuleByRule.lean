/-
# Each rule on its own

Without custom validators no rule of a mapping has to do with another. What a run reports are the
keys that are not declared, and after them, in the order of the rules, what the schema of each rule
alone reports on the entries under its name; and what it leaves under a name is what that run
leaves there. So a failure of one property adds, removes, reorders and changes nothing about
another. A value that stays absent is reported once at most.

The rules share the store and the mapping that they write to. Producers of defaults have to behave
alike on every call, and the data have to be a tree, so that no rule finds there what another
has left.
-/

import DataContract.Proofs.Validation.Folding
import DataContract.Proofs.Validation.Repetition
import DataContract.Proofs.Validation.Strictness

set_option autoImplicit false

namespace DataContract

open Declaration (map_eq_ok bind_eq_ok)

/-- The entries under one key. -/
def Entries.restrictTo (entries : Entries) (key : Value) : Entries := entries.filter (·.1.equal key)

/-- A mapping with its entries under one key only. It can be written to if the whole can. -/
def Value.restrictTo : Value → Value → Value
  | .object entries, key => .object (Entries.restrictTo entries key)
  | .frozen entries, key => .frozen (Entries.restrictTo entries key)
  | .schema _ s, key => .frozen (Entries.restrictTo (schemaEntries s) key)
  | v, _ => v

/-- What a mapping holds under a key. -/
def Value.at? (v key : Value) : Option Value := v.entries?.bind (·.get? key)

theorem Entries.get?_restrictTo (entries : Entries) (key : Value) :
    (entries.restrictTo key).get? key = entries.get? key :=
  Entries.get?_filter fun _ _ same => same

/-- A mapping in hand with some of its entries only is in hand, and is written to as the whole
is. -/
theorem Value.home?_restrictTo {data : Value} {st : Store} {home : Home} {entries : Entries}
    (mapping : data.home? st = some (home, entries)) (owned : home.isOwned = true) (key : Value) :
    ∃ own, (data.restrictTo key).home? st = some (own, entries.restrictTo key) ∧
      own.isOwned = true ∧ own.writable = home.writable := by
  cases data with
  | shared cell =>
      obtain ⟨_, -, same⟩ := Option.map_eq_some_iff.mp mapping
      cases same
      cases owned
  | object _ | frozen _ | schema _ _ =>
      cases mapping
      exact ⟨_, rfl, rfl, rfl⟩
  | _ => cases mapping

theorem Value.entriesUnshared_of_home? {data : Value} {st : Store} {home : Home} {entries : Entries}
    (mapping : data.home? st = some (home, entries)) (tree : data.unshared = true) :
    entriesUnshared entries = true := by
  cases data with
  | object own | frozen own =>
      cases mapping
      rwa [Value.unshared] at tree
  | schema id s =>
      cases mapping
      refine (entriesUnshared_iff _).mpr fun e mem => ?_
      obtain ⟨r, -, rfl⟩ := List.mem_map.mp mem
      rfl
  | shared cell => cases tree
  | _ => cases mapping

section

variable [UserCode]

/-- What the schema of one rule, which tolerates other keys, reports on what some data hold under
the name of the rule. -/
def Rule.alone (r : Rule) (data : Value) (st : Store) : Except Fault Report :=
  (Schema.validate ⟨[r], true⟩ (data.restrictTo r.name) st).result

/-! ## What a rule depends on -/

namespace Rule

variable {r : Rule} (known : r.name.identity?.isSome = true)

include known

/-- What a rule begins with depends on the value under its name only. -/
theorem prepare_congr {before after : Entries} (same : after.get? r.name = before.get? r.name)
    (writable : Bool) (st : Store) :
    (r.prepare writable after st).1.get? r.name = (r.prepare writable before st).1.get? r.name ∧
      (r.prepare writable after st).2 = (r.prepare writable before st).2 := by
  obtain ⟨i, identity⟩ := Option.isSome_iff_exists.mp known
  cases writable with
  | false => exact ⟨same, rfl⟩
  | true =>
      simp only [prepare, Bool.true_and, valueIn_congr same]
      cases r.valueIn before with
      | some v => exact ⟨same, rfl⟩
      | none =>
          rcases r.defaultValue st with ⟨_ | _ | v, st'⟩
          · exact ⟨same, rfl⟩
          · exact ⟨same, rfl⟩
          · simp [Entries.get?_put_self identity]

/-- Without a custom validator, what a rule finds and what it leaves under its name depend on the
value there only, and on no other rule of its schema. -/
theorem walk_congr (contained : r.SelfContained) {before after : Entries}
    (same : after.get? r.name = before.get? r.name) (s t : Schema) {home own : Home}
    (owned : home.isOwned = true) (ownedToo : own.isOwned = true)
    (alike : own.writable = home.writable) (st : Store) :
    (r.walk t own after st).result = (r.walk s home before st).result ∧
      (r.walk t own after st).left.get? r.name = (r.walk s home before st).left.get? r.name := by
  obtain ⟨i, identity⟩ := Option.isSome_iff_exists.mp known
  obtain ⟨begun, store⟩ := prepare_congr known same home.writable st
  rw [walk_eq_of_custom ownedToo contained.default contained.custom,
    walk_eq_of_custom owned contained.default contained.custom, alike]
  dsimp only
  rw [valueIn_congr begun, store]
  split
  · exact ⟨rfl, begun⟩
  · exact ⟨rfl, by simp only [Visit.embed, Entries.get?_put_self identity]⟩

end Rule

/-! ## Rules in order -/

/-- Rules with names apart find together, one after the other, what each finds in any entries that
hold the same under its name; they fail where the first of them does. If none fails, what they leave
under their names is what each leaves there. The induction is on the rules: the others find the
entries changed under the name of the first only, and the store as it was. -/
theorem walkRules_one_by_one {rules : List Rule}
    (known : ∀ r ∈ rules, r.name.identity?.isSome = true)
    (apart : (rules.map fun r => r.name.identity?).Nodup)
    (contained : ∀ r ∈ rules, r.SelfContained) (s : Schema) {home : Home}
    (owned : home.isOwned = true) {st : Store}
    (each : ∀ r ∈ rules, ∀ entries, entriesUnshared entries = true →
      (r.walk s home entries st).store = st ∧
        entriesUnshared (r.walk s home entries st).left = true)
    {base entries : Entries} (same : ∀ r ∈ rules, entries.get? r.name = base.get? r.name)
    (own : entriesUnshared entries = true) :
    (walkRules rules s home entries st).result =
        (rules.mapM fun (r : Rule) => (r.walk s home base st).result).map List.flatten ∧
      ∀ found, (walkRules rules s home entries st).result = .ok found →
        ∀ r ∈ rules, (walkRules rules s home entries st).left.get? r.name =
          (r.walk s home base st).left.get? r.name := by
  induction rules generalizing entries with
  | nil => exact ⟨rfl, nofun⟩
  | cons r rest ih =>
      rw [List.forall_mem_cons] at known contained each
      obtain ⟨knownFirst, knownRest⟩ := known
      have customRest := fun (q : Rule) mem => (contained.2 q mem).custom
      obtain ⟨store, ownLeft⟩ := each.1 entries own
      obtain ⟨first, under⟩ :=
        Rule.walk_congr knownFirst contained.1 (same r List.mem_cons_self) s s owned owned rfl st
      have others : ∀ q ∈ rest,
          (r.walk s home entries st).left.get? q.name = base.get? q.name := by
        intro q mem
        obtain ⟨j, identity⟩ := Option.isSome_iff_exists.mp (knownRest q mem)
        rw [← same q (List.mem_cons_of_mem r mem)]
        have only := Rule.walk_onlyUnder knownFirst contained.1.custom s owned entries st
        refine only.get?_eq q.name j identity ?_
        refine List.forall_mem_singleton.mpr fun clash => (List.nodup_cons.mp apart).1 ?_
        exact List.mem_map.mpr ⟨q, mem, identity.trans clash.symm⟩
      obtain ⟨later, leaves⟩ := ih knownRest (List.nodup_cons.mp apart).2 contained.2 each.2
        others ownLeft
      have stays := (walkRules_onlyUnder knownRest customRest s owned
        (r.walk s home entries st).left st).get?_of_cons knownFirst apart
      rw [List.mapM_cons, ← first]
      constructor
      · rw [walkRules, Visit.append_result, store, later]
        cases (r.walk s home entries st).result with
        | error f => rfl
        | ok own =>
            cases rest.mapM fun (q : Rule) => (q.walk s home base st).result <;> rfl
      · intro found walked
        rw [walkRules, Visit.append_result, store] at walked
        obtain ⟨own, head, walked⟩ := bind_eq_ok.mp walked
        obtain ⟨more, tail, rfl⟩ := map_eq_ok.mp walked
        have left : (walkRules (r :: rest) s home entries st).left =
            (walkRules rest s home (r.walk s home entries st).left st).left := by
          rw [walkRules, Visit.andThen, head, store]
          rfl
        rw [left]
        refine List.forall_mem_cons.mpr ⟨stays.trans under, leaves more tail⟩

/-! ## Schemas -/

section Mapping

variable {data : Value} {st : Store} {home : Home} {entries : Entries}

/-- What a run finds in a mapping. -/
theorem Schema.walk_result_of_home? (s : Schema) (mapping : data.home? st = some (home, entries)) :
    (s.walk data st).result =
      (walkRules s.rules s home entries st).result.map (s.undeclared entries ++ ·) := by
  rw [walk_result, mapping]

variable (mapping : data.home? st = some (home, entries)) (owned : home.isOwned = true)

include mapping owned

/-- What a run leaves under the keys of a mapping. -/
theorem Schema.walk_left_at? {s : Schema} (contained : s.SelfContained) (key : Value) :
    (s.walk data st).left.at? key = (walkRules s.rules s home entries st).left.get? key := by
  rw [walk_eq]
  cases data with
  | object own | frozen own =>
      cases mapping
      rw [← walkEntries_left]
      rfl
  | schema id t =>
      cases mapping
      rw [(walkRules_schemaEntries contained.rules s id t st).1]
      rfl
  | shared cell =>
      obtain ⟨_, -, same⟩ := Option.map_eq_some_iff.mp mapping
      cases same
      cases owned
  | _ => cases mapping

omit mapping owned in
/-- The rule of a schema of its own. -/
theorem walkRules_singleton (r : Rule) (s : Schema) (home : Home) (entries : Entries)
    (st : Store) :
    (walkRules [r] s home entries st).result = (r.walk s home entries st).result ∧
      (walkRules [r] s home entries st).left = (r.walk s home entries st).left := by
  rw [walkRules, Visit.andThen]
  cases outcome : (r.walk s home entries st).result with
  | error f => exact ⟨rfl, rfl⟩
  | ok found => simp [walkRules, Visit.map, Visit.done, Except.map]

/-- The report on a rule alone, told by the whole mapping. -/
theorem Rule.alone_eq {r : Rule} (known : r.name.identity?.isSome = true)
    (contained : r.SelfContained) (s : Schema) :
    ∃ left, left.at? r.name = (r.walk s home entries st).left.get? r.name ∧
      r.alone data st = (r.walk s home entries st).result.map (⟨·, left⟩) := by
  let single : Schema := ⟨[r], true⟩
  obtain ⟨own, there, ownedToo, alike⟩ := Value.home?_restrictTo mapping owned r.name
  obtain ⟨found, under⟩ := Rule.walk_congr known contained
    (Entries.get?_restrictTo entries r.name) s single owned ownedToo alike st
  obtain ⟨result, left⟩ := walkRules_singleton r single own (entries.restrictTo r.name) st
  have apart : single.SelfContained :=
    ⟨⟨List.forall_mem_singleton.mpr known, List.pairwise_singleton _ _⟩,
      List.forall_mem_singleton.mpr contained⟩
  refine ⟨(single.walk (data.restrictTo r.name) st).left, ?_, ?_⟩
  · rw [Schema.walk_left_at? there ownedToo apart, left, under]
  · rw [Rule.alone, Schema.result_validate, Schema.walk_result_of_home? single there, result, found]
    cases (r.walk s home entries st).result <;> rfl

/-- Where each of some rules finds something in a mapping, each reports that alone. -/
theorem exists_alone {rules : List Rule} (known : ∀ r ∈ rules, r.name.identity?.isSome = true)
    (contained : ∀ r ∈ rules, r.SelfContained) {s : Schema} {parts : List (List Violation)}
    (found : (rules.mapM fun (r : Rule) => (r.walk s home entries st).result) = .ok parts) :
    ∃ ones, rules.mapM (·.alone data st) = .ok ones ∧ ones.map (·.violations) = parts := by
  induction rules generalizing parts with
  | nil =>
      cases found
      exact ⟨[], rfl, rfl⟩
  | cons r rest ih =>
      rw [List.forall_mem_cons] at known contained
      rw [List.mapM_cons] at found
      obtain ⟨own, head, found⟩ := bind_eq_ok.mp found
      obtain ⟨more, tail, found⟩ := bind_eq_ok.mp found
      cases found
      obtain ⟨left, -, alone⟩ := Rule.alone_eq mapping owned known.1 contained.1 s
      obtain ⟨ones, others, same⟩ := ih known.2 contained.2 tail
      refine ⟨⟨own, left⟩ :: ones, ?_, congrArg (own :: ·) same⟩
      rw [List.mapM_cons, alone, head, others]
      rfl

omit mapping in
/-- A value that stays absent is reported once, if it is required, and else not at all. -/
theorem Rule.missing_at_most {r : Rule} {s : Schema}
    (absent : r.valueIn (r.prepare home.writable entries st).1 = none) {found : List Violation}
    (walked : (r.walk s home entries st).result = .ok found) :
    found = [] ∨ r.required = true ∧ ∃ violation, found = [violation] ∧
      r.report (r.prepare home.writable entries st).2 (missingText r.name) = .ok violation := by
  have begun := fill_of_owned (r := r) owned entries st
  have missing := found_of_absent (by rw [begun]; exact absent) walked
  rw [begun] at missing
  split at missing
  next required =>
    obtain ⟨violation, reported, rfl⟩ := map_eq_ok.mp missing
    exact .inr ⟨required, violation, rfl, reported⟩
  · cases missing
    exact .inl rfl

end Mapping

/-- For every schema throughout which names are apart, there are no custom validators, and defaults
are literal or absent or come from producers that behave alike on every call; for every mapping
that is a tree, and every run on it that returns. The report has first the keys that are not
declared, in the order of the mapping, unless the schema tolerates them; and then, in the order of
the rules, what each rule reports alone, on the restriction of the mapping to its name. What is left
under the name of a rule is what is left there by that rule alone. A value that is absent or `null`,
also after its default has been written, is reported once at most: as missing, if it is required. -/
theorem Schema.validate_rule_by_rule {s : Schema} (steady : s.Throughout (Schema.Steady ⊥))
    {data : Value} (tree : data.unshared = true) {st : Store} {home : Home} {entries : Entries}
    (mapping : data.home? st = some (home, entries)) {report : Report}
    (returned : (s.validate data st).result = .ok report) :
    ∃ ones, s.rules.mapM (·.alone data st) = .ok ones ∧
      report.violations =
        (if s.flex then [] else s.strangers entries) ++ ones.flatMap (·.violations) ∧
      ∀ r ∈ s.rules, ∃ one, r.alone data st = .ok one ∧
        report.data.at? r.name = one.data.at? r.name ∧
        (r.valueIn (r.prepare home.writable entries st).1 = none →
          one.violations = [] ∨ r.required = true ∧ ∃ violation, one.violations = [violation] ∧
            r.report st (missingText r.name) = .ok violation) := by
  have contained := steady.imp fun _ own => own.selfContained
  obtain ⟨own, below⟩ := (s.throughout_iff).mp steady
  have known := own.names.known
  have owned := Value.isOwned_of_home? tree mapping
  -- No rule changes the store, and each leaves a tree.
  have each : ∀ r ∈ s.rules, ∀ entries, entriesUnshared entries = true →
      (r.walk s home entries st).store = st ∧
        entriesUnshared (r.walk s home entries st).left = true := by
    intro r mem entries unshared
    have repeats := (own.rules r mem).walk_repeats_of_check (known r mem)
      (fun v own => ((Schema.repeats.2 r.type (below r mem) v own).1 r r.name)) s owned unshared
    exact ⟨(repeats.store st).symm, walk_rule_unshared contained mem owned unshared st⟩
  obtain ⟨result, left⟩ := walkRules_one_by_one known own.names.apart own.selfContained.rules s
    owned each (fun _ _ => rfl) (Value.entriesUnshared_of_home? mapping tree)
  rw [result_validate, walk_result_of_home? s mapping] at returned
  obtain ⟨all, walked, rfl⟩ := map_eq_ok.mp returned
  obtain ⟨found, outcome, rfl⟩ := map_eq_ok.mp walked
  obtain ⟨parts, finds, rfl⟩ := map_eq_ok.mp (result.symm.trans outcome)
  obtain ⟨ones, alone, rfl⟩ := exists_alone mapping owned known own.selfContained.rules finds
  refine ⟨ones, alone, ?_, fun r mem => ?_⟩
  · rw [List.flatMap_def]
    rfl
  · obtain ⟨one, -, report⟩ := exists_mem_of_mapM_ok alone r mem
    obtain ⟨oneLeft, under, same⟩ :=
      Rule.alone_eq mapping owned (known r mem) (own.selfContained.rules r mem) s
    obtain ⟨violations, finds, rfl⟩ := map_eq_ok.mp (same.symm.trans report)
    refine ⟨_, report, ?_, fun absent => ?_⟩
    · rw [walk_left_at? mapping owned own.selfContained, left _ outcome r mem]
      exact under.symm
    · have missing := Rule.missing_at_most owned absent finds
      have keeps : st = (r.prepare home.writable entries st).2 :=
        (own.rules r mem).prepare_keeps home.writable entries st
      rwa [← keeps] at missing

end

/-- An order in which a value is too large, one has not the right type, a required one is missing,
and a name that has a default is absent. -/
def orderSchema : Schema :=
  ⟨[{ Rule.ofType (.text "count") (.scalar .number) with max := some (.int 10) },
    Rule.ofType (.text "article") (.scalar .text),
    { Rule.ofType (.text "customer") (.scalar .text) with required := true },
    { Rule.ofType (.text "currency") (.scalar .text) with
      min := some (.int 4), default := some (.text "EUR") }], false⟩

def orderRecord : Value :=
  .object [(.text "article", .int 5), (.text "note", .text "soon"), (.text "count", .int 12)]

open WithoutUserCode in
theorem validate_rule_by_rule_orderRecord :
    orderSchema.Throughout (Schema.Steady ⊥) ∧ orderRecord.unshared = true ∧
      ∃ report ones, (orderSchema.validate orderRecord Store.empty).result = .ok report ∧
        orderSchema.rules.mapM (·.alone orderRecord Store.empty) = .ok ones ∧
        ones.map (·.violations.length) = [1, 1, 1, 1] ∧
        report.violations = orderSchema.strangers
          [(.text "article", .int 5), (.text "note", .text "soon"), (.text "count", .int 12)] ++
            ones.flatMap (·.violations) := by
  have steady : orderSchema.Throughout (Schema.Steady ⊥) := by
    have simple : orderSchema.rules.all Rule.isSimple = true := rfl
    refine ⟨⟨⟨?_, ?_⟩, fun r mem => Rule.steady_of_isSimple (List.all_eq_true.mp simple r mem)⟩,
      trivial, trivial, trivial, trivial, trivial⟩ <;>
      simp [Value.identity?, Rule.ofType]
  obtain ⟨report, returned⟩ : ∃ report,
      (orderSchema.validate orderRecord Store.empty).result = .ok report := ⟨_, rfl⟩
  obtain ⟨ones, alone, all, -⟩ := Schema.validate_rule_by_rule steady rfl rfl returned
  have counts : (orderSchema.rules.mapM fun (r : Rule) => r.alone orderRecord Store.empty).map
      (fun ones => ones.map fun one => one.violations.length) = .ok [1, 1, 1, 1] := rfl
  rw [alone] at counts
  exact ⟨steady, rfl, report, ones, returned, alone, Except.ok.inj counts, all⟩

/-- A text that is required to be longer than its default. -/
def shortDefault : Value :=
  .object [(.text "a", .object [(.text "type", .callable (.token .text)),
    (.text "default", .text "x"), (.text "min", .int 3)])]

open WithoutUserCode in
/-- An absent value that is not required is reported, and not as missing: its default is written,
and is too short. -/
theorem absent_value_reported :
    ∃ s report, Declaration.compile shortDefault true = .ok s ∧ s.Throughout (Schema.Steady ⊥) ∧
      (Value.object []).at? (.text "a") = none ∧
      (s.validate (.object []) Store.empty).result = .ok report ∧
      report.messages = [.text "Property a must contain at least 3 characters"] := by
  have steady (s : Schema) (compiled : Declaration.compile shortDefault true = .ok s) :
      s.Throughout (Schema.Steady ⊥) := by
    cases compiled
    refine ⟨⟨⟨?_, ?_⟩, List.forall_mem_singleton.mpr (Rule.steady_of_isSimple rfl)⟩,
      trivial, trivial⟩ <;>
      simp [Value.identity?]
  exact ⟨_, _, rfl, steady _ rfl, rfl, rfl, rfl⟩

end DataContract
