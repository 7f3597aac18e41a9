/-
# Which defaults are there after a run

A run that comes to an end has written the defaults of every mapping that it came to,
whatever it found there. It comes to all nested records, but to the items of an array only
up to the first that does not match. So no default is missing in data that pass, nor after
any run if the schema has no defaults below its arrays.

Completeness is said by recursion on the schema, with what counts as an item that fits as a
parameter: if every item does, the items of arrays are looked at to the end.
-/

import DataContract.Proofs.Schema.Grammar
import DataContract.Proofs.Validation.Reading

set_option autoImplicit false

namespace DataContract

/-- Items that are asked in order up to the first that does not fit: the first is complete,
and the others are asked if it fits. -/
def UpToFirstMisfit (fits complete : Value → Prop) : List Value → Prop
  | [] => True
  | v :: rest => complete v ∧ (fits v → UpToFirstMisfit fits complete rest)

mutual

/-- A value in which no default of a schema is missing where a run comes to, if it passes over
the items of an array behind the first that does not fit. Mappings that cannot be written to
need no defaults of their own. -/
def Schema.CompleteUpTo (fits : TypeSpec → Value → Prop) : Schema → Value → Prop
  | ⟨rules, _⟩, .object entries => RulesCompleteUpTo fits rules true entries
  | ⟨rules, _⟩, .frozen entries => RulesCompleteUpTo fits rules false entries
  | _, _ => True
  termination_by structural s => s

/-- Entries in which no default of some rules is missing. -/
def RulesCompleteUpTo (fits : TypeSpec → Value → Prop) : List Rule → Bool → Entries → Prop
  | [], _, _ => True
  | r :: rest, writable, entries =>
    r.CompleteUpTo fits writable entries ∧ RulesCompleteUpTo fits rest writable entries
  termination_by structural rules => rules

/-- Entries that hold a value under the name of a rule if that has a default, and in whose
value under that name no default is missing. -/
def Rule.CompleteUpTo (fits : TypeSpec → Value → Prop) (r : Rule) (writable : Bool)
    (entries : Entries) : Prop :=
  match r with
  | { name, type, default, .. } =>
    (writable = true → default ≠ none → ∃ v, entries.get? name = some v ∧ v ≠ .null) ∧
      ∀ v, entries.get? name = some v → type.CompleteUpTo fits v
  termination_by structural r

/-- A value in whose nested records no default is missing, as far as they are asked for. -/
def TypeSpec.CompleteUpTo (fits : TypeSpec → Value → Prop) : TypeSpec → Value → Prop
  | .nested s, v => s.CompleteUpTo fits v
  | .array (some item), v =>
    ∀ items, v.items? = some items → UpToFirstMisfit (fits item) (item.CompleteUpTo fits) items
  | _, _ => True
  termination_by structural t => t

end

/-- Every item counts as one that fits, so none is passed over. -/
abbrev EveryItem : TypeSpec → Value → Prop := fun _ _ => True

/-- A value in which no default of a schema is missing, in no nested record and in no item of
an array. -/
def Schema.Complete (s : Schema) (v : Value) : Prop := s.CompleteUpTo EveryItem v

/-- A value in which no default is missing but in the items of arrays behind the first that
does not match. -/
def Schema.CompleteUpToMisfits (s : Schema) (seen : Store) (v : Value) : Prop :=
  s.CompleteUpTo (TypeSpec.AdmitsItem seen) v

mutual

/-- A schema none of whose defaults stands below an array. -/
def Schema.DefaultsOutsideArrays : Schema → Prop
  | ⟨rules, _⟩ => RulesDefaultsOutsideArrays rules
  termination_by structural s => s

/-- Rules with no defaults below arrays. -/
def RulesDefaultsOutsideArrays : List Rule → Prop
  | [] => True
  | r :: rest => r.DefaultsOutsideArrays ∧ RulesDefaultsOutsideArrays rest
  termination_by structural rules => rules

/-- A rule with no defaults below arrays in its type. -/
def Rule.DefaultsOutsideArrays (r : Rule) : Prop :=
  match r with
  | { type, .. } => type.DefaultsOutsideArrays
  termination_by structural r

/-- A type whose items have no defaults at all, and whose nested records have none below
arrays. -/
def TypeSpec.DefaultsOutsideArrays : TypeSpec → Prop
  | .nested s => s.DefaultsOutsideArrays
  | .array (some item) => item.Throughout Schema.WithoutDefaults
  | _ => True
  termination_by structural t => t

end

/-- A rule whose default, if it has one, is a text or a number. -/
def Rule.LiteralDefault (r : Rule) : Prop :=
  ∀ d, r.default = some d → (∃ s, d = .text s) ∨ d.isNumber = true

/-- A schema whose defaults are texts and numbers. -/
def Schema.LiteralDefaults (s : Schema) : Prop := ∀ r ∈ s.rules, r.LiteralDefault

variable {fits : TypeSpec → Value → Prop}

/-! ## Completeness by parts -/

theorem upToFirstMisfit_iff_forall {fits complete : Value → Prop} {items : List Value}
    (all : ∀ x ∈ items, fits x) :
    UpToFirstMisfit fits complete items ↔ ∀ x ∈ items, complete x := by
  induction items with
  | nil => simp [UpToFirstMisfit]
  | cons v rest ih =>
      rw [List.forall_mem_cons] at all ⊢
      rw [UpToFirstMisfit, ih all.2]
      exact and_congr_right fun _ => ⟨fun later => later all.1, fun later _ => later⟩

theorem Rule.completeUpTo_iff (r : Rule) (writable : Bool) (entries : Entries) :
    r.CompleteUpTo fits writable entries ↔
      (writable = true → r.default ≠ none → ∃ v, entries.get? r.name = some v ∧ v ≠ .null) ∧
        ∀ v, entries.get? r.name = some v → r.type.CompleteUpTo fits v := by
  obtain ⟨name, type, required, custom, pattern, min, max, choices, default, message⟩ := r
  rfl

theorem Rule.completeUpTo_congr {r : Rule} {writable : Bool} {before after : Entries}
    (same : after.get? r.name = before.get? r.name) :
    r.CompleteUpTo fits writable after ↔ r.CompleteUpTo fits writable before := by
  rw [completeUpTo_iff, completeUpTo_iff, same]

theorem rulesCompleteUpTo_iff (rules : List Rule) (writable : Bool) (entries : Entries) :
    RulesCompleteUpTo fits rules writable entries ↔ ∀ r ∈ rules,
      (writable = true → r.default ≠ none → ∃ v, entries.get? r.name = some v ∧ v ≠ .null) ∧
        ∀ v, entries.get? r.name = some v → r.type.CompleteUpTo fits v := by
  induction rules with
  | nil => simp [RulesCompleteUpTo]
  | cons r rest ih => rw [RulesCompleteUpTo, ih, List.forall_mem_cons, Rule.completeUpTo_iff]

theorem Schema.defaultsOutsideArrays_iff (s : Schema) :
    s.DefaultsOutsideArrays ↔ ∀ r ∈ s.rules, r.type.DefaultsOutsideArrays := by
  obtain ⟨rules, flex⟩ := s
  rw [Schema.DefaultsOutsideArrays]
  induction rules with
  | nil => simp [RulesDefaultsOutsideArrays]
  | cons r rest ih =>
      obtain ⟨name, type, required, custom, pattern, min, max, choices, default, message⟩ := r
      rw [RulesDefaultsOutsideArrays, Rule.DefaultsOutsideArrays, ih, List.forall_mem_cons]

/-- A schema asks the same of every mapping: that no default of its rules is missing. -/
theorem Schema.completeUpTo_of_each {s : Schema} {v : Value}
    (each : ∀ writable entries, v = .object entries ∧ writable = true ∨
      v = .frozen entries ∧ writable = false → RulesCompleteUpTo fits s.rules writable entries) :
    s.CompleteUpTo fits v := by
  obtain ⟨rules, flex⟩ := s
  cases v with
  | object entries => exact each true entries (.inl ⟨rfl, rfl⟩)
  | frozen entries => exact each false entries (.inr ⟨rfl, rfl⟩)
  | _ => trivial

theorem Schema.CompleteUpTo.rules {s : Schema} {v : Value} (complete : s.CompleteUpTo fits v)
    {writable : Bool} {entries : Entries}
    (mapping : v = .object entries ∧ writable = true ∨ v = .frozen entries ∧ writable = false) :
    RulesCompleteUpTo fits s.rules writable entries := by
  obtain ⟨rules, flex⟩ := s
  rcases mapping with ⟨rfl, rfl⟩ | ⟨rfl, rfl⟩ <;> exact complete

/-- Where there is no mapping and no item, no default can be missing. -/
theorem TypeSpec.completeUpTo_of_bare (t : TypeSpec) {v : Value} (noMapping : v.isMapping = false)
    (noArray : v.items? = none) : t.CompleteUpTo fits v := by
  cases t with
  | scalar kind => trivial
  | nested s =>
      obtain ⟨rules, flex⟩ := s
      cases v <;> trivial
  | array item =>
      cases item with
      | none => trivial
      | some item =>
          intro items array
          cases noArray.symm.trans array

/-- Items that are asked in order are complete up to the first that does not fit. -/
theorem Walk.allItems_completes {walk : Walk Bool} {fits complete : Value → Prop}
    {items : List Value}
    (each : ∀ v ∈ items, ∀ st answer, (walk v st).result = .ok answer →
      complete (walk v st).left ∧ (fits (walk v st).left → answer = true))
    (st : Store) {answer : Bool} (returned : (Walk.allItems walk items st).result = .ok answer) :
    UpToFirstMisfit fits complete (Walk.allItems walk items st).left := by
  induction items generalizing st with
  | nil => trivial
  | cons v rest ih =>
      rw [allItems] at returned ⊢
      split at returned
      next passed =>
        refine ⟨(each v List.mem_cons_self st true passed).1, fun _ => ?_⟩
        exact ih (fun x mem => each x (List.mem_cons_of_mem v mem)) _ returned
      next result stops =>
        obtain ⟨complete, decides⟩ := each v List.mem_cons_self st answer returned
        refine ⟨complete, fun fit => ?_⟩
        rw [decides fit] at returned
        exact absurd returned stops

/-! ## What a run completes -/

section

variable [UserCode]

/-- A text or number that is a default is given as it is. -/
theorem Rule.LiteralDefault.given {r : Rule} (literal : r.LiteralDefault) {d : Value}
    (isDefault : r.default = some d) (st : Store) :
    r.defaultValue st = (.ok (some d), st) ∧ d ≠ .null := by
  rcases literal d isDefault with ⟨s, rfl⟩ | number
  · exact ⟨by rw [defaultValue, isDefault], by simp⟩
  · obtain ⟨n, isNumber⟩ := Option.isSome_iff_exists.mp number
    cases d <;> cases isNumber <;> exact ⟨by rw [defaultValue, isDefault]; rfl, by simp⟩

theorem Rule.LiteralDefault.gives {r : Rule} (literal : r.LiteralDefault) (good : Value → Prop) :
    r.ProducerGives good := by
  intro f isProducer
  rcases literal _ isProducer with ⟨_, isText⟩ | number
  · cases isText
  · cases number

/-- A text or number that is written as a default is there. -/
theorem Rule.valueIn_prepare {r : Rule} (known : r.name.identity?.isSome = true)
    (literal : r.LiteralDefault) (has : r.default ≠ none) (entries : Entries) (st : Store) :
    ∃ v, r.valueIn (r.prepare true entries st).1 = some v := by
  obtain ⟨d, isDefault⟩ := Option.ne_none_iff_exists'.mp has
  obtain ⟨given, present⟩ := literal.given isDefault st
  cases found : r.valueIn entries with
  | some v => exact ⟨v, by simp [prepare, found]⟩
  | none =>
      refine ⟨d, ?_⟩
      simpa [prepare, found, given] using valueIn_put_self known entries present

/-- If the check of its type completes a value, a rule completes what stands under its name. -/
theorem Rule.walk_completes_of_check {r : Rule} (known : r.name.identity?.isSome = true)
    (contained : r.SelfContained) (literal : r.LiteralDefault)
    (checked : ∀ v st found, v.unshared = true → (r.type.check r r.name v st).result = .ok found →
      r.type.CompleteUpTo fits (r.type.check r r.name v st).left)
    (s : Schema) {home : Home} (owned : home.isOwned = true) {entries : Entries}
    (own : entriesUnshared entries = true) (st : Store) {found : List Violation}
    (returned : (r.walk s home entries st).result = .ok found) :
    r.CompleteUpTo fits home.writable (r.walk s home entries st).left := by
  have ownBegun := Rule.prepare_unshared contained own home.writable st
  have begins (canWrite : home.writable = true) (has : r.default ≠ none) :
      ∃ v, r.valueIn (r.prepare home.writable entries st).1 = some v := by
    rw [canWrite]
    exact valueIn_prepare known literal has entries st
  rw [walk_eq_of_custom owned contained.default contained.custom] at returned ⊢
  dsimp only at returned ⊢
  generalize r.prepare home.writable entries st = begun at ownBegun begins returned
  cases present : r.valueIn begun.1 with
  | none =>
      refine (completeUpTo_iff _ _ _).mpr ⟨fun canWrite has => ?_, fun v there => ?_⟩
      · obtain ⟨v, filled⟩ := begins canWrite has
        cases present.symm.trans filled
      · -- What counts as absent is `null` where it is there.
        have isNull : v = .null := by
          by_contra some
          cases present.symm.trans ((valueIn_eq_some_iff r begun.1 v).mpr ⟨there, some⟩)
        exact isNull ▸ r.type.completeUpTo_of_bare rfl rfl
  | some v =>
      rw [present] at returned
      obtain ⟨there, notNull⟩ := (valueIn_eq_some_iff r begun.1 v).mp present
      obtain ⟨key, mem⟩ := Entries.mem_of_get? there
      have ownValue := (entriesUnshared_iff begun.1).mp ownBegun (key, v) mem
      obtain ⟨messages, passed, -⟩ := Declaration.bind_eq_ok.mp returned
      have complete := checked v begun.2 messages ownValue passed
      have left := TypeSpec.check_left_ne_null r.type r r.name notNull begun.2
      have holds := ((valueIn_eq_some_iff r _ _).mp (valueIn_put_self known begun.1 left)).1
      refine (completeUpTo_iff _ _ _).mpr ⟨fun _ _ => ⟨_, holds, left⟩, fun x found => ?_⟩
      cases holds.symm.trans found
      exact complete

/-- If each of some rules completes what stands under its name, rules applied in order complete
entries: none touches what stands under the name of another. -/
theorem walkRules_completes_of_each {rules : List Rule}
    (known : ∀ r ∈ rules, r.name.identity?.isSome = true)
    (apart : (rules.map fun r => r.name.identity?).Nodup)
    (custom : ∀ r ∈ rules, r.custom = none) (s : Schema) {home : Home}
    (owned : home.isOwned = true)
    (each : ∀ r ∈ rules, ∀ entries st, entriesUnshared entries = true →
      entriesUnshared (r.walk s home entries st).left = true ∧
        ∀ found, (r.walk s home entries st).result = .ok found →
          r.CompleteUpTo fits home.writable (r.walk s home entries st).left)
    {entries : Entries} (own : entriesUnshared entries = true) (st : Store)
    {found : List Violation} (returned : (walkRules rules s home entries st).result = .ok found) :
    RulesCompleteUpTo fits rules home.writable (walkRules rules s home entries st).left := by
  induction rules generalizing entries st found with
  | nil => trivial
  | cons r rest ih =>
      rw [List.forall_mem_cons] at known custom each
      obtain ⟨ownLeft, head⟩ := each.1 entries st own
      rw [walkRules, Visit.append_result] at returned
      obtain ⟨first, passed, later⟩ := Declaration.bind_eq_ok.mp returned
      obtain ⟨more, further, -⟩ := Declaration.map_eq_ok.mp later
      have stays := (walkRules_onlyUnder known.2 custom.2 s owned
        (r.walk s home entries st).left (r.walk s home entries st).store).get?_of_cons known.1 apart
      have tail := ih known.2 (List.nodup_cons.mp apart).2 custom.2 each.2 ownLeft _ further
      rw [walkRules, Visit.andThen, passed]
      exact ⟨(Rule.completeUpTo_congr stays).mpr (head first passed), tail⟩

/-- Items of an array are complete up to the first that does not match, if each one is complete
after it was asked. -/
theorem Walk.ofItems_completes {item : TypeSpec}
    (each : ∀ x st answer, x.unshared = true → (item.takes x st).result = .ok answer →
      item.CompleteUpTo fits (item.takes x st).left ∧
        (fits item (item.takes x st).left → answer = true))
    {v : Value} (own : v.unshared = true) (st : Store) {answer : Bool}
    (returned : (Walk.ofItems item.takes v st).result = .ok answer) :
    (TypeSpec.array (some item)).CompleteUpTo fits (Walk.ofItems item.takes v st).left := by
  have together (items : List Value) (own : allUnshared items = true)
      (returned : (Walk.allItems item.takes items st).result = .ok answer) :=
    Walk.allItems_completes
      (fun x mem st answer => each x st answer ((allUnshared_iff items).mp own x mem)) st returned
  cases v with
  | list items | tuple items =>
      intro left array
      cases array
      exact together items own returned
  | shared cell => cases own
  | _ =>
      intro left array
      cases array

/-- If the checks of its rules complete values, a schema completes mappings. -/
theorem Schema.walk_completes_of_each {s : Schema} (contained : s.Throughout Schema.SelfContained)
    (literal : s.LiteralDefaults)
    (each : ∀ r ∈ s.rules, ∀ v st found, v.unshared = true →
      (r.type.check r r.name v st).result = .ok found →
        r.type.CompleteUpTo fits (r.type.check r r.name v st).left)
    {v : Value} (own : v.unshared = true) (st : Store) {found : List Violation}
    (returned : (s.walk v st).result = .ok found) :
    s.CompleteUpTo fits (s.walk v st).left := by
  have here := ((Schema.throughout_iff s).mp contained).1
  have rulesComplete (home : Home) (owned : home.isOwned = true) (entries : Entries)
      (own : entriesUnshared entries = true)
      (returned : (s.walkEntries home entries st).result = .ok found) :
      RulesCompleteUpTo fits s.rules home.writable (s.walkEntries home entries st).left := by
    rw [walkEntries_result] at returned
    obtain ⟨more, walked, -⟩ := Declaration.map_eq_ok.mp returned
    rw [walkEntries_left]
    refine walkRules_completes_of_each here.names.known here.names.apart
      (fun r mem => (here.rules r mem).custom) s owned ?_ own st walked
    intro r mem entries st own
    exact ⟨Schema.walk_rule_unshared contained mem owned own st,
      fun found => Rule.walk_completes_of_check (here.names.known r mem) (here.rules r mem)
        (literal r mem) (each r mem) s owned own st⟩
  rw [walk_eq] at returned ⊢
  obtain ⟨rules, flex⟩ := s
  cases v with
  | object entries => exact rulesComplete .object rfl entries own returned
  | frozen entries => exact rulesComplete .frozen rfl entries own returned
  | shared cell => cases own
  | _ => trivial

/-- A run that returns leaves data complete up to misfits. So does the check of a type, and
asking whether a type takes a value; that answers yes if the value as it is left is one that an
array may hold. -/
theorem Schema.completes {seen : Store} :
    (∀ s : Schema, s.Throughout Schema.SelfContained → s.Throughout Schema.LiteralDefaults →
      ∀ v st found, v.unshared = true → (s.walk v st).result = .ok found →
        s.CompleteUpToMisfits seen (s.walk v st).left) ∧
    ∀ t : TypeSpec, t.Throughout Schema.SelfContained → t.Throughout Schema.LiteralDefaults →
      ∀ v st, v.unshared = true →
        (∀ r key found, (t.check r key v st).result = .ok found →
          t.CompleteUpTo (TypeSpec.AdmitsItem seen) (t.check r key v st).left) ∧
        ∀ answer, (t.takes v st).result = .ok answer →
          t.CompleteUpTo (TypeSpec.AdmitsItem seen) (t.takes v st).left ∧
            (t.AdmitsItem seen (t.takes v st).left → answer = true) := by
  -- An answer is what the value as it is left says.
  have decides (t : TypeSpec) (contained : t.Throughout Schema.SelfContained) {v : Value}
      {st : Store} (own : v.unshared = true) {answer : Bool}
      (returned : (t.takes v st).result = .ok answer)
      (admits : t.AdmitsItem seen (t.takes v st).left) : answer = true := by
    have passed := (t.takes_judges contained v st own).passes_iff.mpr admits
    exact Except.ok.inj (returned.symm.trans passed)
  refine Schema.induction ⟨?schema, ?scalar, ?nested, ?untyped, ?array⟩
  case schema =>
    intro s below contained literal v st found own returned
    have each := ((Schema.throughout_iff s).mp contained).2
    rw [Schema.throughout_iff] at literal
    refine Schema.walk_completes_of_each contained literal.1 ?_ own st returned
    intro r mem v st found own
    exact (below r mem (each r mem) (literal.2 r mem) v st own).1 r r.name found
  case scalar =>
    intro kind contained _ v st own
    exact ⟨fun _ _ _ _ => trivial, fun answer returned =>
      ⟨trivial, decides (.scalar kind) contained own returned⟩⟩
  case nested =>
    intro s below contained literal v st own
    refine ⟨fun r key found returned => ?_, fun answer returned =>
      ⟨?_, decides (.nested s) contained own returned⟩⟩
    · rw [TypeSpec.check, st.head_of_unshared own] at returned ⊢
      split at returned
      next other =>
        rw [if_pos other, Visit.done]
        obtain ⟨rules, flex⟩ := s
        cases v <;> trivial
      next mapping =>
        rw [if_neg mapping]
        obtain ⟨violations, walked, -⟩ := Declaration.bind_eq_ok.mp returned
        exact below contained literal v st violations own walked
    · obtain ⟨violations, walked, -⟩ := Declaration.map_eq_ok.mp returned
      exact below contained literal v st violations own walked
  case untyped =>
    intro contained _ v st own
    exact ⟨fun _ _ _ _ => trivial, fun answer returned =>
      ⟨trivial, decides (.array none) contained own returned⟩⟩
  case array =>
    intro item below contained literal v st own
    have complete {answer : Bool} (returned : (Walk.ofItems item.takes v st).result = .ok answer) :=
      Walk.ofItems_completes (fun x st answer own => (below contained literal x st own).2 answer)
        own st returned
    refine ⟨fun r key found returned => ?_, fun answer returned =>
      ⟨complete returned, decides (.array (some item)) contained own returned⟩⟩
    rw [TypeSpec.check, st.head_of_unshared own] at returned ⊢
    split at returned
    next other =>
      intro items array
      cases other.symm.trans array
    next items array =>
      obtain ⟨answer, asked, -⟩ := Declaration.map_eq_ok.mp returned
      exact complete asked

end

/-! ## Data that pass, and schemas without defaults below arrays -/

/-- What has the type of a rule may be an item of an array, where the type has parts. -/
theorem TypeSpec.scalar_or_admitsItem {seen : Store} {r : Rule} {t : TypeSpec} {v : Value}
    (conforms : t.Conforms seen r v) : (∃ kind, t = .scalar kind) ∨ t.AdmitsItem seen v := by
  cases t with
  | scalar kind => exact .inl ⟨kind, rfl⟩
  | nested s => exact .inr conforms
  | array item =>
      cases item with
      | none =>
          obtain ⟨items, array, -⟩ := conforms
          exact .inr (by simp [AdmitsItem, Value.isArray, array])
      | some item =>
          obtain ⟨items, array, -, all⟩ := conforms
          exact .inr ⟨items, array, all⟩

/-- Data that conform have no misfits, so nothing is missing in them. The same holds of items
that an array may hold. -/
theorem Schema.complete_of_conforms {seen : Store} :
    (∀ (s : Schema) v, s.Conforms seen v → s.CompleteUpToMisfits seen v → s.Complete v) ∧
    ∀ (t : TypeSpec) v, t.AdmitsItem seen v → t.CompleteUpTo (TypeSpec.AdmitsItem seen) v →
      t.CompleteUpTo EveryItem v := by
  refine Schema.induction ⟨?schema, ?scalar, ?nested, ?untyped, ?array⟩
  case schema =>
    intro s below v conforms upTo
    refine Schema.completeUpTo_of_each fun writable entries mapping => ?_
    have all : ∀ r ∈ s.rules, r.Conforms seen entries := by
      obtain ⟨rules, flex⟩ := s
      obtain ⟨own, here, -, all⟩ := conforms
      have same : own = entries := by
        rcases mapping with ⟨rfl, -⟩ | ⟨rfl, -⟩ <;> cases here <;> rfl
      exact (rulesConform_iff rules entries).mp (same ▸ all)
    rw [rulesCompleteUpTo_iff]
    intro r mem
    obtain ⟨present, there⟩ := (rulesCompleteUpTo_iff _ _ _).mp (upTo.rules mapping) r mem
    refine ⟨present, fun v found => ?_⟩
    have conforms := all r mem
    rw [Rule.conforms_iff, Rule.valueIn, found] at conforms
    cases v with
    | null => exact r.type.completeUpTo_of_bare rfl rfl
    | _ =>
        rcases TypeSpec.scalar_or_admitsItem conforms with ⟨kind, isScalar⟩ | admits
        · rw [isScalar]
          trivial
        · exact below r mem _ admits (there _ found)
  case scalar => exact fun _ _ _ _ => trivial
  case nested => exact fun _ below v admits upTo => below v admits upTo
  case untyped => exact fun _ _ _ => trivial
  case array =>
    intro item below v admits upTo items array
    obtain ⟨own, sameArray, all⟩ := admits
    rw [seen.head_of_items? array] at sameArray
    cases array.symm.trans sameArray
    have complete := (upToFirstMisfit_iff_forall all).mp (upTo items array)
    exact (upToFirstMisfit_iff_forall fun _ _ => trivial).mpr fun x mem =>
      below x (all x mem) (complete x mem)

/-- Without defaults none is missing. -/
theorem Schema.complete_of_withoutDefaults :
    (∀ s : Schema, s.Throughout Schema.WithoutDefaults → ∀ v, s.Complete v) ∧
    ∀ t : TypeSpec, t.Throughout Schema.WithoutDefaults → ∀ v, t.CompleteUpTo EveryItem v := by
  refine Schema.induction ⟨?schema, ?scalar, ?nested, ?untyped, ?array⟩
  case schema =>
    intro s below without v
    rw [Schema.throughout_iff] at without
    refine Schema.completeUpTo_of_each fun writable entries _ => ?_
    rw [rulesCompleteUpTo_iff]
    exact fun r mem => ⟨fun _ has => absurd (without.1 r mem) has,
      fun v _ => below r mem (without.2 r mem) v⟩
  case scalar => exact fun _ _ _ => trivial
  case nested => exact fun _ below without v => below without v
  case untyped => exact fun _ _ => trivial
  case array =>
    intro item below without v items _
    exact (upToFirstMisfit_iff_forall fun _ _ => trivial).mpr fun x _ => below without x

/-- If no default stands below an array, what is complete up to misfits is complete. -/
theorem Schema.complete_of_outsideArrays :
    (∀ s : Schema, s.DefaultsOutsideArrays → ∀ v, s.CompleteUpTo fits v → s.Complete v) ∧
    ∀ t : TypeSpec, t.DefaultsOutsideArrays → ∀ v, t.CompleteUpTo fits v →
      t.CompleteUpTo EveryItem v := by
  refine Schema.induction ⟨?schema, ?scalar, ?nested, ?untyped, ?array⟩
  case schema =>
    intro s below outside v upTo
    rw [Schema.defaultsOutsideArrays_iff] at outside
    refine Schema.completeUpTo_of_each fun writable entries mapping => ?_
    rw [rulesCompleteUpTo_iff]
    intro r mem
    obtain ⟨present, there⟩ := (rulesCompleteUpTo_iff _ _ _).mp (upTo.rules mapping) r mem
    exact ⟨present, fun v found => below r mem (outside r mem) v (there v found)⟩
  case scalar => exact fun _ _ _ _ => trivial
  case nested => exact fun _ below outside v upTo => below outside v upTo
  case untyped => exact fun _ _ _ => trivial
  case array =>
    intro item _ outside v _ items _
    exact (upToFirstMisfit_iff_forall fun _ _ => trivial).mpr fun x _ =>
      Schema.complete_of_withoutDefaults.2 item outside x

end DataContract
