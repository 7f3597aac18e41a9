/-
# What a run judges

A run and conformity go through the data differently: the run writes defaults on its
way and stops asking items at the first that does not match. What it gives agrees
nevertheless with the data as it leaves them, and with the data into which the
defaults were written beforehand. The agreement is stated once, for any part of the
run, and is proved along the schema.
-/

import DataContract.Proofs.Validation.Checks
import DataContract.Proofs.Validation.Frame

set_option autoImplicit false

namespace DataContract

/-- A part of a run gives the answer that lets data pass exactly if what it leaves
holds, and exactly if what the defaults make of the data holds. Data that pass are left
as the defaults make them. -/
structure Visit.Judges {σ α : Type} (w : Visit σ α) (pass : α) (holds kept : σ → Prop)
    (filled : σ × Store) : Prop where
  kept : kept w.left
  passes_iff : w.result = .ok pass ↔ holds w.left
  left_of_pass : w.result = .ok pass → w.left = filled.1
  store_of_pass : w.result = .ok pass → w.store = filled.2
  pass_of_filled : holds filled.1 → w.result = .ok pass

namespace Visit.Judges

variable {σ τ α β : Type} {w : Visit σ α} {pass : α} {holds kept : σ → Prop}
  {filled : σ × Store}

/-- A part that writes nothing, where no default belongs. -/
theorem of_unchanged {v : σ} {st : Store} (own : kept v) (left : w.left = v)
    (store : w.store = st) (passes : w.result = .ok pass ↔ holds v) :
    w.Judges pass holds kept (v, st) where
  kept := left ▸ own
  passes_iff := left ▸ passes
  left_of_pass _ := left
  store_of_pass _ := store
  pass_of_filled := passes.mpr

/-- The same part with another answer, which passes on a further condition that the
walk and the defaults leave as it is. -/
theorem guarded (judged : w.Judges pass holds kept filled) {w' : Visit σ β} {again : β}
    {holds' : σ → Prop} {condition : Prop} (left : w'.left = w.left)
    (store : w'.store = w.store)
    (passes : w'.result = .ok again ↔ condition ∧ w.result = .ok pass)
    (walked : holds' w.left ↔ condition ∧ holds w.left)
    (full : holds' filled.1 ↔ condition ∧ holds filled.1) :
    w'.Judges again holds' kept filled where
  kept := left ▸ judged.kept
  passes_iff := by rw [left, passes, walked, judged.passes_iff]
  left_of_pass ok := left.trans (judged.left_of_pass (passes.mp ok).2)
  store_of_pass ok := store.trans (judged.store_of_pass (passes.mp ok).2)
  pass_of_filled conform :=
    passes.mpr ((full.mp conform).imp_right judged.pass_of_filled)

/-- What was found is looked at further, and only the passing answer passes again. -/
theorem check (judged : w.Judges pass holds kept filled) {next : α → Except Fault β}
    {again : β} (only : ∀ a, next a = .ok again ↔ a = pass) :
    (w.check next).Judges again holds kept filled where
  kept := judged.kept
  passes_iff := (w.check_passes_iff only).trans judged.passes_iff
  left_of_pass passed := judged.left_of_pass ((w.check_passes_iff only).mp passed)
  store_of_pass passed := judged.store_of_pass ((w.check_passes_iff only).mp passed)
  pass_of_filled := (w.check_passes_iff only).mpr ∘ judged.pass_of_filled

/-- What was found is said in another way, and only the passing answer passes again. -/
theorem map (judged : w.Judges pass holds kept filled) {f : α → β} {again : β}
    (only : ∀ a, f a = again ↔ a = pass) : (w.map f).Judges again holds kept filled where
  kept := judged.kept
  passes_iff := (w.map_passes_iff only).trans judged.passes_iff
  left_of_pass passed := judged.left_of_pass ((w.map_passes_iff only).mp passed)
  store_of_pass passed := judged.store_of_pass ((w.map_passes_iff only).mp passed)
  pass_of_filled := (w.map_passes_iff only).mpr ∘ judged.pass_of_filled

/-- A part is taken for the whole, of which only the part is left to judge. -/
theorem embed (judged : w.Judges pass holds kept filled) {f : σ → τ}
    {holds' kept' : τ → Prop} (own : kept w.left → kept' (f w.left))
    (left : holds' (f w.left) ↔ holds w.left)
    (full : holds' (f filled.1) ↔ holds filled.1) :
    (w.embed f).Judges pass holds' kept' (f filled.1, filled.2) where
  kept := own judged.kept
  passes_iff := judged.passes_iff.trans left.symm
  left_of_pass passed := congrArg f (judged.left_of_pass passed)
  store_of_pass := judged.store_of_pass
  pass_of_filled := judged.pass_of_filled ∘ full.mp

/-- Two parts are judged one after the other if the second leaves what the first looks
at. A first part that fails stops the run, and then its own condition fails. -/
theorem append {β : Type} {first : Visit σ (List β)} {next : σ → Store → Visit σ (List β)}
    {holds holds' kept : σ → Prop} {full : σ × Store} {nextFull : σ → Store → σ × Store}
    (head : first.Judges [] holds kept full)
    (further : ∀ st, (next first.left st).Judges [] holds' kept (nextFull first.left st))
    (sameWalked : ∀ x st, holds (next x st).left ↔ holds x)
    (sameFilled : ∀ x st, holds (nextFull x st).1 ↔ holds x) :
    (first.andThen fun found x st => (next x st).map (found ++ ·)).Judges []
      (fun x => holds x ∧ holds' x) kept (nextFull full.1 full.2) := by
  rw [Visit.andThen]
  cases outcome : first.result with
  | error fault =>
      have failed : first.result ≠ .ok [] := by simp [outcome]
      have fails : ¬ holds first.left := failed ∘ head.passes_iff.mpr
      constructor
      · exact head.kept
      · simp [fails]
      · intro ok
        cases ok
      · intro ok
        cases ok
      · intro all
        exact absurd (head.pass_of_filled ((sameFilled full.1 full.2).mp all.1)) failed
  | ok found =>
      have second := further first.store
      have passed : first.result = .ok [] ↔ found = [] := by simp [outcome]
      have both := (next first.left first.store).map_append_eq_nil_iff found
      -- What passes the first part is what its defaults make of the data.
      have begun (none : found = []) : full = (first.left, first.store) :=
        Prod.ext (head.left_of_pass (passed.mpr none)).symm
          (head.store_of_pass (passed.mpr none)).symm
      constructor
      · exact second.kept
      · rw [both, second.passes_iff, ← passed, head.passes_iff]
        exact and_congr_left fun _ => (sameWalked first.left first.store).symm
      · intro ok
        rw [begun (both.mp ok).1]
        exact second.left_of_pass (both.mp ok).2
      · intro ok
        rw [begun (both.mp ok).1]
        exact second.store_of_pass (both.mp ok).2
      · intro all
        have none := passed.mp (head.pass_of_filled ((sameFilled full.1 full.2).mp all.1))
        rw [begun none] at all
        exact both.mpr ⟨none, second.pass_of_filled all.2⟩

end Visit.Judges

theorem Store.head_of_unshared (st : Store) {v : Value} (own : v.unshared = true) :
    st.head v = v := by
  cases v with
  | shared cell => cases own
  | _ => rfl

theorem Store.head_of_items? (st : Store) {v : Value} {items : List Value}
    (array : v.items? = some items) : st.head v = v := by
  cases v with
  | shared cell => cases array
  | _ => rfl

/-- An item that does not match leaves those after it unasked. -/
theorem Walk.allItems_of_stops {walk : Walk Bool} {v : Value} {st : Store}
    (stops : (walk v st).result ≠ .ok true) (rest : List Value) :
    Walk.allItems walk (v :: rest) st =
      ⟨(walk v st).result, (walk v st).left :: rest, (walk v st).store, (walk v st).tallies⟩ := by
  rw [allItems]
  split
  · contradiction
  · rfl

/-- If every item is judged alone, items asked in order are judged together: the first
one that does not match decides. -/
theorem Walk.allItems_judges {walk : Walk Bool} {fill : Value → Store → Value × Store}
    {holds : Value → Prop} {items : List Value}
    (each : ∀ v ∈ items, ∀ st, (walk v st).Judges true holds (·.unshared = true) (fill v st))
    (own : allUnshared items = true) (st : Store) :
    (Walk.allItems walk items st).Judges true (fun items => ∀ x ∈ items, holds x)
      (allUnshared · = true) (fillItems fill items st) := by
  induction items generalizing st with
  | nil => exact .of_unchanged rfl rfl rfl (by simp [allItems, Visit.done])
  | cons v rest ih =>
      have first := each v List.mem_cons_self st
      rw [allUnshared, Bool.and_eq_true] at own
      have others := ih (fun x mem => each x (List.mem_cons_of_mem v mem)) own.2
      by_cases passed : (walk v st).result = .ok true
      · have further := others (walk v st).store
        have filled : fillItems fill (v :: rest) st =
            ((walk v st).left :: (fillItems fill rest (walk v st).store).1,
              (fillItems fill rest (walk v st).store).2) := by
          rw [fillItems, first.left_of_pass passed, first.store_of_pass passed]
        have holdsFirst := first.passes_iff.mp passed
        rw [filled, allItems, passed]
        constructor
        · simpa [allUnshared, first.kept] using further.kept
        · simpa [holdsFirst] using further.passes_iff
        · intro ok
          exact congrArg ((walk v st).left :: ·) (further.left_of_pass ok)
        · exact further.store_of_pass
        · intro all
          exact further.pass_of_filled fun x mem => all x (List.mem_cons_of_mem _ mem)
      · have fails : ¬ holds (walk v st).left := passed ∘ first.passes_iff.mpr
        rw [allItems_of_stops passed]
        constructor
        · simpa [allUnshared, first.kept] using own.2
        · simp [passed, fails]
        · exact fun ok => absurd ok passed
        · exact fun ok => absurd ok passed
        · intro all
          exact first.pass_of_filled (all _ List.mem_cons_self)

theorem Walk.allItems_length (walk : Walk Bool) (items : List Value) (st : Store) :
    (Walk.allItems walk items st).left.length = items.length := by
  induction items generalizing st with
  | nil => rfl
  | cons v rest ih =>
      rw [allItems]
      split
      · simp [ih]
      · rfl

theorem fillItems_length (fill : Value → Store → Value × Store) (items : List Value)
    (st : Store) : (fillItems fill items st).1.length = items.length := by
  induction items generalizing st with
  | nil => rfl
  | cons v rest ih => simp [fillItems, ih]

/-! ## Rules as they see entries -/

-- What is judged holds nothing that is shared, so any store shows the same of it.
variable {seen : Store}

theorem entriesUnshared_iff (entries : Entries) :
    entriesUnshared entries = true ↔ ∀ e ∈ entries, e.2.unshared = true := by
  induction entries with
  | nil => simp [entriesUnshared]
  | cons e rest ih => simp [entriesUnshared, ih]

theorem entriesUnshared_put {entries : Entries} {v : Value}
    (own : entriesUnshared entries = true) (ownValue : v.unshared = true) (n : Value) :
    entriesUnshared (entries.put n v) = true := by
  rw [entriesUnshared_iff] at own ⊢
  intro e mem
  rcases Entries.mem_put mem with old | new
  · exact own e old
  · exact new ▸ ownValue

namespace Rule

variable {r : Rule}

theorem valueIn_put_self (known : r.name.identity?.isSome = true) (entries : Entries) {v : Value}
    (present : v ≠ .null) : r.valueIn (entries.put r.name v) = some v := by
  obtain ⟨i, identity⟩ := Option.isSome_iff_exists.mp known
  exact (valueIn_eq_some_iff r _ v).mpr ⟨Entries.get?_put_self identity entries v, present⟩

/-- Entries keep to a rule by what they hold under its name. -/
theorem conforms_iff (r : Rule) (entries : Entries) :
    r.Conforms seen entries ↔
      match r.valueIn entries with
      | none => r.required = false
      | some v => r.type.Conforms seen r v := by
  obtain ⟨name, type, required, custom, pattern, min, max, choices, default, message⟩ := r
  rw [Conforms, valueIn]
  dsimp only
  split <;> grind

theorem conforms_of_valueIn {entries : Entries} {v : Value} (found : r.valueIn entries = some v) :
    r.Conforms seen entries ↔ r.type.Conforms seen r v := by
  rw [conforms_iff, found]

theorem conforms_congr {before after : Entries} (same : after.get? r.name = before.get? r.name) :
    r.Conforms seen after ↔ r.Conforms seen before := by
  rw [conforms_iff, conforms_iff, valueIn, valueIn, same]

/-- The default of a rule is unshared if its producer gives unshared values. -/
theorem defaultValue_unshared [UserCode] (gives : r.ProducerGives (·.unshared = true)) {st : Store}
    {v : Value} (default : (r.defaultValue st).1 = .ok (some v)) : v.unshared = true := by
  rw [defaultValue] at default
  split at default
  next f isProducer =>
    split at default
    next made left outcome =>
      cases default
      exact (gives f isProducer).value st v (by rw [outcome])
    · split at default <;> cases default
  · cases default
    rfl
  next literal _ _ _ =>
    cases literal <;> cases default <;> rfl
  · cases default

/-- What a rule begins with is unshared if what it is given is. -/
theorem prepare_unshared [UserCode] (contained : r.SelfContained) {entries : Entries}
    (own : entriesUnshared entries = true) (writable : Bool) (st : Store) :
    entriesUnshared (r.prepare writable entries st).1 = true := by
  rcases r.prepare_cases writable entries st with same | ⟨v, default, -, -, written⟩
  · rwa [same]
  · rw [written]
    exact entriesUnshared_put own (defaultValue_unshared contained.default default) r.name

end Rule

/-- An absent value passes exactly if it is not required. -/
theorem Rule.missing_passes_iff (r : Rule) (st : Store) (message : String) :
    (if r.required then (r.report st message).map ([·]) else .ok []) = .ok [] ↔
      r.required = false := by
  cases r.required with
  | false => simp
  | true => cases r.report st message <;> simp [Except.map]

/-- Elements that each become something become nothing only if there are none. -/
theorem mapM_eq_nil_iff {ε α β : Type} (f : α → Except ε β) (items : List α) :
    items.mapM f = .ok [] ↔ items = [] := by
  cases items with
  | nil => simp [pure, Except.pure]
  | cons a rest =>
      rw [List.mapM_cons]
      cases f a with
      | error fault => simp [bind, Except.bind]
      | ok b => cases rest.mapM f <;> simp [bind, Except.bind, pure, Except.pure]

/-- A mapping is still there after a walk over its entries. -/
theorem Walk.ofEntries_left_ne_null
    (walk : Home → Entries → Store → Visit Entries (List Violation)) {v : Value}
    (present : v ≠ .null) (st : Store) : (Walk.ofEntries walk v st).left ≠ .null := by
  rw [ofEntries]
  split
  next home entries _ => cases home <;> exact Value.noConfusion
  · exact present

/-- An array is still there after a walk over its items. -/
theorem Walk.ofItems_left_ne_null (walk : Walk Bool) {v : Value} (present : v ≠ .null)
    (st : Store) : (Walk.ofItems walk v st).left ≠ .null := by
  cases v with
  | list _ | tuple _ => exact Value.noConfusion
  | shared cell =>
      rw [ofItems]
      split <;> exact Value.noConfusion
  | _ => exact present

variable [UserCode]

/-- What is there is still there after a check. -/
theorem TypeSpec.check_left_ne_null (t : TypeSpec) (r : Rule) (key : Value) {v : Value}
    (present : v ≠ .null) (st : Store) : (t.check r key v st).left ≠ .null := by
  cases t with
  | scalar kind => exact present
  | nested s =>
      rw [check, s.walk_eq]
      split
      · exact present
      · exact Walk.ofEntries_left_ne_null s.walkEntries present st
  | array item =>
      cases item with
      | none =>
          rw [check]
          split <;> exact present
      | some item =>
          rw [check]
          split
          · exact present
          · exact Walk.ofItems_left_ne_null item.takes present st

/-- What is there is still there after the defaults were written. -/
theorem TypeSpec.fillAll_ne_null (t : TypeSpec) {v : Value} (present : v ≠ .null) (st : Store) :
    (t.fillAll v st).1 ≠ .null := by
  cases t with
  | scalar kind => exact present
  | nested s =>
      obtain ⟨rules, flex⟩ := s
      rw [fillAll]
      cases v <;> first | exact present | simp [Schema.fillAll]
  | array item =>
      cases item with
      | none => exact present
      | some item => cases v <;> first | exact present | simp [fillAll]

/-- If the check of a rule's type is judged, applying the rule is. -/
theorem Rule.walk_judges_of_check {r : Rule} (known : r.name.identity?.isSome = true)
    (contained : r.SelfContained)
    (checked : ∀ v st, v.unshared = true →
      (r.type.check r r.name v st).Judges [] (r.type.Conforms seen r) (·.unshared = true)
        (r.type.fillAll v st))
    (s : Schema) {home : Home} (owned : home.isOwned = true) {entries : Entries}
    (own : entriesUnshared entries = true) (st : Store) :
    (r.walk s home entries st).Judges [] (r.Conforms seen) (entriesUnshared · = true)
      (r.fillAll home.writable entries st) := by
  have ownBegun := Rule.prepare_unshared contained own home.writable st
  rw [Rule.walk_eq_of_custom owned contained.default contained.custom, Rule.fillAll_eq]
  dsimp only
  generalize r.prepare home.writable entries st = begun at ownBegun
  cases found : r.valueIn begun.1 with
  | none =>
      refine .of_unchanged ownBegun rfl rfl ?_
      rw [Rule.conforms_iff, found]
      exact r.missing_passes_iff begun.2 (missingText r.name)
  | some v =>
      obtain ⟨there, present⟩ := (Rule.valueIn_eq_some_iff r begun.1 v).mp found
      obtain ⟨key, mem⟩ := Entries.mem_of_get? there
      have ownValue := (entriesUnshared_iff begun.1).mp ownBegun (key, v) mem
      have judged := checked v begun.2 ownValue
      have conforms (x : Value) (there : x ≠ .null) :
          r.Conforms seen (begun.1.put r.name x) ↔ r.type.Conforms seen r x :=
        Rule.conforms_of_valueIn (Rule.valueIn_put_self known begun.1 there)
      exact (judged.check fun messages => mapM_eq_nil_iff _ messages).embed
        (fun ownLeft => entriesUnshared_put ownBegun ownLeft r.name)
        (conforms _ (TypeSpec.check_left_ne_null r.type r r.name present begun.2))
        (conforms _ (TypeSpec.fillAll_ne_null r.type present begun.2))

/-- If every rule is judged alone, rules applied in order are judged together: none
touches what stands under the name of another. -/
theorem walkRules_judges_of_each {rules : List Rule}
    (known : ∀ r ∈ rules, r.name.identity?.isSome = true)
    (apart : (rules.map fun r => r.name.identity?).Nodup)
    (contained : ∀ r ∈ rules, r.SelfContained) (s : Schema) {home : Home}
    (owned : home.isOwned = true)
    (each : ∀ r ∈ rules, ∀ entries st, entriesUnshared entries = true →
      (r.walk s home entries st).Judges [] (r.Conforms seen) (entriesUnshared · = true)
        (r.fillAll home.writable entries st))
    {entries : Entries} (own : entriesUnshared entries = true) (st : Store) :
    (walkRules rules s home entries st).Judges [] (RulesConform seen rules)
      (entriesUnshared · = true) (fillRules rules home.writable entries st) := by
  induction rules generalizing entries st with
  | nil => exact .of_unchanged own rfl rfl (by simp [walkRules, Visit.done, RulesConform])
  | cons r rest ih =>
      have knownFirst := known r List.mem_cons_self
      have knownRest := fun q mem => known q (List.mem_cons_of_mem r mem)
      have containedRest := fun q mem => contained q (List.mem_cons_of_mem r mem)
      have head := each r List.mem_cons_self entries st own
      have further := ih knownRest (List.nodup_cons.mp apart).2 containedRest
        (fun q mem => each q (List.mem_cons_of_mem r mem)) head.kept
      have sameWalked (after : Entries) (st : Store) :
          r.Conforms seen (walkRules rest s home after st).left ↔ r.Conforms seen after :=
        Rule.conforms_congr
          ((walkRules_onlyUnder knownRest (fun q mem => (containedRest q mem).custom) s owned
            after st).get?_of_cons knownFirst apart)
      have sameFilled (after : Entries) (st : Store) :
          r.Conforms seen (fillRules rest home.writable after st).1 ↔ r.Conforms seen after :=
        Rule.conforms_congr
          ((fillRules_onlyUnder knownRest home.writable after st).get?_of_cons knownFirst apart)
      rw [walkRules, fillRules]
      exact head.append further sameWalked sameFilled

/-! ## Schemas as data -/

/-- Rules have no parts that a check could write into. -/
theorem TypeSpec.check_rule (t : TypeSpec) (r q : Rule) (key : Value) (st : Store) :
    (t.check r key (.rule q) st).left = .rule q ∧ (t.check r key (.rule q) st).store = st := by
  rcases t with kind | s | item
  · exact ⟨rfl, rfl⟩
  · exact ⟨rfl, rfl⟩
  · cases item <;> exact ⟨rfl, rfl⟩

/-- The entries of a schema that is validated as data stay as they are. -/
theorem walkRules_schemaEntries {rules : List Rule} (contained : ∀ r ∈ rules, r.SelfContained)
    (s : Schema) (id : Nat) (t : Schema) (st : Store) :
    (walkRules rules s (.schema id t) (Value.schemaEntries t) st).left = Value.schemaEntries t ∧
      (walkRules rules s (.schema id t) (Value.schemaEntries t) st).store = st := by
  have walked (r : Rule) (own : r.SelfContained) (st : Store) :
      (r.walk s (.schema id t) (Value.schemaEntries t) st).left = Value.schemaEntries t ∧
        (r.walk s (.schema id t) (Value.schemaEntries t) st).store = st := by
    have begun : r.prepare false (Value.schemaEntries t) st = (Value.schemaEntries t, st) := rfl
    rw [Rule.walk_eq_of_custom rfl own.default own.custom]
    simp only [Home.writable, begun]
    split
    · exact ⟨rfl, rfl⟩
    next v found =>
      obtain ⟨there, -⟩ := (Rule.valueIn_eq_some_iff r _ v).mp found
      obtain ⟨key, mem⟩ := Entries.mem_of_get? there
      obtain ⟨q, -, isRule⟩ := List.mem_map.mp mem
      obtain ⟨-, rfl⟩ := Prod.mk.inj isRule
      obtain ⟨left, store⟩ := r.type.check_rule r q r.name st
      refine ⟨?_, store⟩
      rw [Visit.embed, Visit.check, left, Entries.put_get?_self there]
  induction rules generalizing st with
  | nil => exact ⟨rfl, rfl⟩
  | cons r rest ih =>
      obtain ⟨left, store⟩ := walked r (contained r List.mem_cons_self) st
      rw [walkRules, Visit.andThen, left, store]
      split
      · exact ⟨rfl, rfl⟩
      · exact ih (fun q mem => contained q (List.mem_cons_of_mem r mem)) st

/-! ## Schemas -/

namespace Schema

omit [UserCode] in
theorem undeclared_eq_nil_iff (s : Schema) (entries : Entries) :
    s.undeclared entries = [] ↔
      (s.flex = false → ∀ key ∈ entries.keys, ∃ r ∈ s.rules, r.name.equal key = true) := by
  rw [undeclared]
  cases s.flex <;> simp [declares, List.filter_eq_nil_iff]

omit [UserCode] in
/-- Writing under declared names makes no key undeclared. -/
theorem declared_congr {rules : List Rule} {before after : Entries}
    (known : ∀ r ∈ rules, r.name.identity?.isSome = true)
    (only : Entries.OnlyUnder (rules.map (·.name)) before after) :
    (∀ key ∈ after.keys, ∃ r ∈ rules, r.name.equal key = true) ↔
      ∀ key ∈ before.keys, ∃ r ∈ rules, r.name.equal key = true := by
  obtain ⟨more, keys, own⟩ := only.keys_eq
  rw [keys]
  constructor
  · exact fun all key mem => all key (List.mem_append_left more mem)
  · intro all key mem
    rcases List.mem_append.mp mem with old | new
    · exact all key old
    · obtain ⟨r, inRules, rfl⟩ := List.mem_map.mp (own key new)
      exact ⟨r, inRules, Value.equal_self (known r inRules)⟩

/-- The keys and the rules of a schema are judged together. -/
theorem walkEntries_judges {s : Schema} (contained : s.SelfContained)
    (each : ∀ r ∈ s.rules, ∀ v st, v.unshared = true →
      (r.type.check r r.name v st).Judges [] (r.type.Conforms seen r) (·.unshared = true)
        (r.type.fillAll v st))
    {home : Home} (owned : home.isOwned = true) {entries : Entries}
    (own : entriesUnshared entries = true) (st : Store) :
    (s.walkEntries home entries st).Judges []
      (fun e => (s.flex = false → ∀ key ∈ e.keys, ∃ r ∈ s.rules, r.name.equal key = true) ∧
        RulesConform seen s.rules e)
      (entriesUnshared · = true) (fillRules s.rules home.writable entries st) := by
  have known := contained.names.known
  have walked := walkRules_onlyUnder known (fun r mem => (contained.rules r mem).custom)
    s owned entries st
  have filled := fillRules_onlyUnder known home.writable entries st
  have judged := walkRules_judges_of_each known contained.names.apart contained.rules s owned
    (fun r mem _ _ own => r.walk_judges_of_check (known r mem) (contained.rules r mem) (each r mem)
      s owned own _) own st
  refine judged.guarded (s.walkEntries_left home entries st) (s.walkEntries_store home entries st)
    ?_ (and_congr_left fun _ => imp_congr_right fun _ => declared_congr known walked)
    (and_congr_left fun _ => imp_congr_right fun _ => declared_congr known filled)
  have both := (walkRules s.rules s home entries st).map_append_eq_nil_iff (s.undeclared entries)
  rw [undeclared_eq_nil_iff] at both
  rw [s.walkEntries_result]
  exact both

/-- If the checks of its rules are judged, a schema is. -/
theorem walk_judges_of_each {s : Schema} (contained : s.SelfContained)
    (each : ∀ r ∈ s.rules, ∀ v st, v.unshared = true →
      (r.type.check r r.name v st).Judges [] (r.type.Conforms seen r) (·.unshared = true)
        (r.type.fillAll v st))
    {v : Value} (own : v.unshared = true) (st : Store) :
    (s.walk v st).Judges [] (s.Conforms seen) (·.unshared = true) (s.fillAll v st) := by
  have conforms (v : Value) {entries : Entries} (mapping : (seen.head v).entries? = some entries) :
      s.Conforms seen v ↔
        (s.flex = false → ∀ key ∈ entries.keys, ∃ r ∈ s.rules, r.name.equal key = true) ∧
          RulesConform seen s.rules entries := by
    obtain ⟨rules, flex⟩ := s
    simp [Conforms, mapping]
  rw [s.walk_eq]
  cases v with
  | object entries =>
      have judged := walkEntries_judges contained each Home.isOwned_object own st
      obtain ⟨rules, flex⟩ := s
      exact judged.embed id (conforms (.object _) rfl) (conforms (.object _) rfl)
  | frozen entries =>
      have judged := walkEntries_judges contained each Home.isOwned_frozen own st
      obtain ⟨rules, flex⟩ := s
      exact judged.embed id (conforms (.frozen _) rfl) (conforms (.frozen _) rfl)
  | schema id t =>
      have ownEntries : entriesUnshared (Value.schemaEntries t) = true := by
        rw [entriesUnshared_iff]
        intro e mem
        obtain ⟨q, -, rfl⟩ := List.mem_map.mp mem
        rfl
      obtain ⟨left, store⟩ := walkRules_schemaEntries contained.rules s id t st
      have judged := walkEntries_judges contained each (Home.isOwned_schema id t) ownEntries st
      have passes := judged.passes_iff
      rw [s.walkEntries_left, left] at passes
      have kept := (s.walkEntries_store (.schema id t) (Value.schemaEntries t) st).trans store
      obtain ⟨rules, flex⟩ := s
      exact .of_unchanged own rfl kept (passes.trans (conforms (.schema id t) rfl).symm)
  | shared cell => cases own
  | _ =>
      obtain ⟨rules, flex⟩ := s
      refine .of_unchanged own rfl rfl ?_
      simp [Walk.ofEntries, Value.home?, Visit.done, Conforms, Store.head, Value.entries?]

end Schema

/-! ## Types -/

theorem Schema.fillAll_of_not_mapping (s : Schema) {v : Value} (other : v.isMapping = false)
    (st : Store) : s.fillAll v st = (v, st) := by
  obtain ⟨rules, flex⟩ := s
  cases v <;> first | rfl | cases other

omit [UserCode] in
theorem Schema.isMapping_of_conforms {s : Schema} {v : Value} (conforms : s.Conforms seen v)
    (own : v.unshared = true) : v.isMapping = true := by
  obtain ⟨rules, flex⟩ := s
  rw [Schema.Conforms, seen.head_of_unshared own] at conforms
  obtain ⟨entries, mapping, -⟩ := conforms
  simp [Value.isMapping, mapping]

omit [UserCode] in
theorem allUnshared_iff (items : List Value) :
    allUnshared items = true ↔ ∀ x ∈ items, x.unshared = true := by
  induction items with
  | nil => simp [allUnshared]
  | cons x rest ih => simp [allUnshared, ih]

theorem TypeSpec.fillAll_of_not_array (item : TypeSpec) {v : Value} (other : v.items? = none)
    (st : Store) : (TypeSpec.array (some item)).fillAll v st = (v, st) := by
  cases v <;> first | rfl | cases other

/-- If every item is judged alone, an array is judged by its items. -/
theorem Walk.ofItems_judges {item : TypeSpec}
    (each : ∀ x st, x.unshared = true →
      (item.takes x st).Judges true (item.AdmitsItem seen) (·.unshared = true) (item.fillAll x st))
    {v : Value} (own : v.unshared = true) (st : Store) :
    (Walk.ofItems item.takes v st).Judges true
      ((TypeSpec.array (some item)).AdmitsItem seen) (·.unshared = true)
      ((TypeSpec.array (some item)).fillAll v st) := by
  have together (items : List Value) (own : allUnshared items = true) :=
    Walk.allItems_judges
      (fun x mem st => each x st ((allUnshared_iff items).mp own x mem)) own st
  cases v with
  | list items =>
      exact (together items own).embed id (by simp [TypeSpec.AdmitsItem, Store.head, Value.items?])
        (by simp [TypeSpec.AdmitsItem, Store.head, Value.items?])
  | tuple items =>
      exact (together items own).embed id (by simp [TypeSpec.AdmitsItem, Store.head, Value.items?])
        (by simp [TypeSpec.AdmitsItem, Store.head, Value.items?])
  | shared cell => cases own
  | _ =>
      refine .of_unchanged own rfl rfl ?_
      simp [ofItems, Visit.done, TypeSpec.AdmitsItem, Store.head, Value.items?]

omit [UserCode] in
theorem Walk.ofItems_length (walk : Walk Bool) {v : Value} {items : List Value}
    (array : v.items? = some items) (st : Store) :
    ∃ left, (Walk.ofItems walk v st).left.items? = some left ∧
      left.length = items.length := by
  cases v with
  | list own | tuple own =>
      cases array
      exact ⟨_, rfl, allItems_length walk items st⟩
  | _ => cases array

theorem TypeSpec.fillAll_length (item : TypeSpec) {v : Value} {items : List Value}
    (array : v.items? = some items) (st : Store) :
    ∃ filled, ((TypeSpec.array (some item)).fillAll v st).1.items? = some filled ∧
      filled.length = items.length := by
  cases v with
  | list own | tuple own =>
      cases array
      exact ⟨_, rfl, fillItems_length item.fillAll items st⟩
  | _ => cases array

omit [UserCode] in
/-- An array conforms by its length and, as an item does, by its items. -/
theorem TypeSpec.conforms_iff_admitsItem (item : TypeSpec) (r : Rule) {v : Value}
    {items : List Value} (array : v.items? = some items) {count : Nat}
    (length : items.length = count) :
    (TypeSpec.array (some item)).Conforms seen r v ↔
      WithinBounds r.min r.max (.int count) ∧ (TypeSpec.array (some item)).AdmitsItem seen v := by
  simp [TypeSpec.Conforms, TypeSpec.AdmitsItem, seen.head_of_items? array, array, length]

omit [UserCode] in
/-- A check that says its messages as texts passes exactly if it finds none. -/
theorem map_text_eq_nil_iff (found : Except Fault (List String)) :
    found.map (·.map Message.text) = .ok [] ↔ found = .ok [] := by
  cases found <;> simp [Except.map]

omit [UserCode] in
/-- The violations of a nested record are folded into one, so only none become none. -/
theorem fold_eq_nil_iff (key : Value) (violations : List Violation) :
    (if violations.isEmpty then .ok []
      else (foldMessages key (flattenMessages violations)).map ([·])) = .ok [] ↔
      violations = [] := by
  cases violations with
  | nil => simp
  | cons first rest =>
      cases foldMessages key (flattenMessages (first :: rest)) <;> simp [Except.map]

omit [UserCode] in
/-- An array passes exactly if its length is within bounds and all its items match. -/
theorem Rule.array_passes_iff {σ : Type} (r : Rule) (key : Value) (count : Nat) (message : Message)
    (w : Visit σ Bool) :
    (w.map fun all => (r.lengthFailures key count).map .text ++
      (if all then [] else [message])).result = .ok [] ↔
      WithinBounds r.min r.max (.int count) ∧ w.result = .ok true := by
  rw [← r.lengthFailures_eq_nil_iff key, Visit.map]
  rcases w.result with _ | _ | _ <;> simp [Except.map]

/-- A run over data judges them against the schema. So does the check of a type, by the type
and the bounds of a rule, and asking whether a type takes a value judges it as an item. -/
theorem Schema.judges :
    (∀ s : Schema, s.Throughout Schema.SelfContained → ∀ v st, v.unshared = true →
      (s.walk v st).Judges [] (s.Conforms seen) (·.unshared = true) (s.fillAll v st)) ∧
    ∀ t : TypeSpec, t.Throughout Schema.SelfContained → ∀ v st, v.unshared = true →
      (∀ r key, (t.check r key v st).Judges [] (t.Conforms seen r) (·.unshared = true)
        (t.fillAll v st)) ∧
      (t.takes v st).Judges true (t.AdmitsItem seen) (·.unshared = true) (t.fillAll v st) := by
  refine Schema.induction ⟨?schema, ?scalar, ?nested, ?untyped, ?array⟩
  case schema =>
    intro s below contained v st own
    rw [Schema.throughout_iff] at contained
    exact Schema.walk_judges_of_each contained.1
      (fun r mem v st own => (below r mem (contained.2 r mem) v st own).1 r r.name) own st
  case scalar =>
    intro kind _ v st own
    refine ⟨fun r key => .of_unchanged own rfl rfl ?_, .of_unchanged own rfl rfl ?_⟩
    · rw [TypeSpec.check, st.head_of_unshared own, TypeSpec.Conforms, seen.head_of_unshared own,
        ← Rule.scalarFailures_eq_nil_iff r key kind v]
      exact map_text_eq_nil_iff _
    · rw [TypeSpec.takes, st.head_of_unshared own, TypeSpec.AdmitsItem, seen.head_of_unshared own]
      rfl
  case nested =>
    intro s below contained v st own
    have judged := below contained v st own
    refine ⟨fun r key => ?_, judged.map fun violations => List.isEmpty_iff⟩
    rw [TypeSpec.check, st.head_of_unshared own, TypeSpec.fillAll]
    cases mapping : v.isMapping with
    | false =>
        -- What is no mapping conforms to no schema, and nothing is written into it.
        rw [Bool.not_false, if_pos rfl, s.fillAll_of_not_mapping mapping]
        refine .of_unchanged own rfl rfl ?_
        have fails : ¬ s.Conforms seen v := by
          intro conforms
          cases mapping.symm.trans (Schema.isMapping_of_conforms conforms own)
        simp [Visit.done, TypeSpec.Conforms, fails]
    | true =>
        rw [Bool.not_true, if_neg Bool.false_ne_true]
        exact judged.check (fold_eq_nil_iff key)
  case untyped =>
    intro _ v st own
    refine ⟨fun r key => ?_, .of_unchanged own rfl rfl ?_⟩
    · rw [TypeSpec.check, st.head_of_unshared own]
      cases items : v.items? with
      | none =>
          refine .of_unchanged own rfl rfl ?_
          simp [Visit.done, TypeSpec.Conforms, seen.head_of_unshared own, items]
      | some items =>
          refine .of_unchanged own rfl rfl ?_
          simp [Visit.done, TypeSpec.Conforms, seen.head_of_unshared own, *,
            Rule.lengthFailures_eq_nil_iff]
    · simp [TypeSpec.takes, Visit.done, TypeSpec.AdmitsItem, seen.head_of_unshared own,
        st.head_of_unshared own]
  case array =>
    intro item below contained v st own
    have judged := Walk.ofItems_judges (fun x st own => (below contained x st own).2) own st
    refine ⟨fun r key => ?_, judged⟩
    rw [TypeSpec.check, st.head_of_unshared own]
    cases array : v.items? with
    | none =>
        rw [TypeSpec.fillAll_of_not_array item array]
        refine .of_unchanged own rfl rfl ?_
        simp [Visit.done, TypeSpec.Conforms, seen.head_of_unshared own, array]
    | some items =>
        obtain ⟨walked, hasWalked, walkedLength⟩ := Walk.ofItems_length item.takes array st
        obtain ⟨filled, hasFilled, filledLength⟩ := item.fillAll_length array st
        exact judged.guarded rfl rfl (r.array_passes_iff key items.length _ _)
          (TypeSpec.conforms_iff_admitsItem item r hasWalked walkedLength)
          (TypeSpec.conforms_iff_admitsItem item r hasFilled filledLength)

/-- A run over data judges them against the schema. -/
theorem Schema.walk_judges (s : Schema) (contained : s.Throughout Schema.SelfContained) (v : Value)
    (st : Store) (own : v.unshared = true) :
    (s.walk v st).Judges [] (s.Conforms seen) (·.unshared = true) (s.fillAll v st) :=
  Schema.judges.1 s contained v st own

/-- The check of a type judges a value by the type and the bounds of a rule. -/
theorem TypeSpec.check_judges (t : TypeSpec) (contained : t.Throughout Schema.SelfContained)
    (r : Rule) (key v : Value) (st : Store) (own : v.unshared = true) :
    (t.check r key v st).Judges [] (t.Conforms seen r) (·.unshared = true) (t.fillAll v st) :=
  (Schema.judges.2 t contained v st own).1 r key

/-- Asking whether a type takes a value judges the value as an item. -/
theorem TypeSpec.takes_judges (t : TypeSpec) (contained : t.Throughout Schema.SelfContained)
    (v : Value) (st : Store) (own : v.unshared = true) :
    (t.takes v st).Judges true (t.AdmitsItem seen) (·.unshared = true) (t.fillAll v st) :=
  (Schema.judges.2 t contained v st own).2

/-- A rule of a schema leaves entries unshared, also where it finds violations. -/
theorem Schema.walk_rule_unshared {s : Schema} (contained : s.Throughout Schema.SelfContained)
    {r : Rule} (mem : r ∈ s.rules) {home : Home} (owned : home.isOwned = true) {entries : Entries}
    (own : entriesUnshared entries = true) (st : Store) :
    entriesUnshared (r.walk s home entries st).left = true := by
  rw [s.throughout_iff] at contained
  have judged : (r.walk s home entries st).Judges [] (r.Conforms st) (entriesUnshared · = true)
      (r.fillAll home.writable entries st) :=
    Rule.walk_judges_of_check (contained.1.names.known r mem) (contained.1.rules r mem)
      (fun v st => r.type.check_judges (contained.2 r mem) r r.name v st) s owned own st
  exact judged.kept

end DataContract
