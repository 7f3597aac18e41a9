/-
# Validating again

A run that is repeated on what it left finds the same and writes nothing. That is so for
valid data and for others, and also where a failure stops the run: the first run has written
every default that the second one would write, and stops at the same items. Producers of
defaults have to behave alike on every call, and may well fail or give `null`. What they do
to the store is their own affair, as long as it looks the same where messages are read from it.

More is true of the rules of one mapping: any entries that hold the same values under their
names are left as they are, with the same violations.
-/

import DataContract.Proofs.Validation.Growth
import Mathlib.Data.Setoid.Basic
import Mathlib.Order.CompletePartialOrder

set_option autoImplicit false

namespace DataContract

theorem Value.eq_null_of_equal {v : Value} (equal : Value.null.equal v = true) : v = .null := by
  cases v with
  | null => rfl
  | _ => cases equal

/-- A walk that can be repeated: it leaves a store that looks the same, and from what it leaves
it comes to the same outcome in every store that looks the same. -/
structure Repeats {σ α : Type} (view : Setoid Store) (walk : σ → Store → Visit σ α) (x : σ) :
    Prop where
  store : ∀ st, view st (walk x st).store
  again : ∀ st st', view st st' → ∃ later, view st' later ∧
    walk (walk x st).left st' = ⟨(walk x st).result, (walk x st).left, later, (walk x st).tallies⟩

/-- A walk that changes nothing, and sees nothing of the store, can be repeated. -/
theorem Repeats.of_unchanged {σ α : Type} {view : Setoid Store} {walk : σ → Store → Visit σ α}
    {x : σ} {result : Except Fault α}
    (same : ∀ st, walk x st = Visit.ofExcept result x st) : Repeats view walk x where
  store st := by
    rw [same]
    exact view.refl' st
  again st st' _ := by
    refine ⟨st', view.refl' st', ?_⟩
    rw [same st]
    exact same st'

/-- What is found is told in another way. -/
theorem Repeats.of_result {σ α β : Type} {view : Setoid Store} {walk : σ → Store → Visit σ α}
    {walk' : σ → Store → Visit σ β} {x : σ} (repeats : Repeats view walk x)
    (tell : Except Fault α → Except Fault β)
    (here : ∀ st, walk' x st =
      ⟨tell (walk x st).result, (walk x st).left, (walk x st).store, (walk x st).tallies⟩)
    (again : ∀ st st', walk' (walk x st).left st' =
      ⟨tell (walk (walk x st).left st').result, (walk (walk x st).left st').left,
        (walk (walk x st).left st').store, (walk (walk x st).left st').tallies⟩) :
    Repeats view walk' x where
  store st := by
    rw [here]
    exact repeats.store st
  again st st' agree := by
    obtain ⟨later, keeps, same⟩ := repeats.again st st' agree
    refine ⟨later, keeps, ?_⟩
    rw [here, again, same]

/-- The walk over a part that can be repeated is one over the whole. -/
theorem Repeats.embed {σ τ α : Type} {view : Setoid Store} {walk : σ → Store → Visit σ α}
    {whole : τ → Store → Visit τ α} {part : σ} (repeats : Repeats view walk part) (put : σ → τ)
    (here : ∀ st, whole (put part) st = (walk part st).embed put)
    (again : ∀ st st', whole (put (walk part st).left) st' =
      (walk (walk part st).left st').embed put) :
    Repeats view whole (put part) where
  store st := by
    rw [here]
    exact repeats.store st
  again st st' agree := by
    obtain ⟨later, agrees, same⟩ := repeats.again st st' agree
    refine ⟨later, agrees, ?_⟩
    rw [here, Visit.embed, again, same]
    rfl

/-- A walk over entries that can be repeated on any entries that hold what it left under some
names: it comes to the same outcome and leaves them as they are. -/
structure RepeatsUnder {α : Type} (view : Setoid Store) (names : List Value)
    (walk : Entries → Store → Visit Entries α) (entries : Entries) : Prop where
  store : ∀ st, view st (walk entries st).store
  again : ∀ st st', view st st' → ∀ after : Entries,
    (∀ n ∈ names, after.get? n = (walk entries st).left.get? n) →
    ∃ later, view st' later ∧
      walk after st' = ⟨(walk entries st).result, after, later, (walk entries st).tallies⟩

/-- Two walks one after the other can be repeated if the second leaves what the first looks
at. -/
theorem RepeatsUnder.append {α : Type} {view : Setoid Store} {names more : List Value}
    {first next : Entries → Store → Visit Entries (List α)} {entries : Entries}
    (head : RepeatsUnder view names first entries)
    (further : ∀ st, RepeatsUnder view more next (first entries st).left)
    (stays : ∀ st, ∀ n ∈ names,
      (next (first entries st).left (first entries st).store).left.get? n =
        (first entries st).left.get? n) :
    RepeatsUnder view (names ++ more)
      (fun e st => (first e st).andThen fun found e st => (next e st).map (found ++ ·))
      entries := by
  constructor
  · intro st
    dsimp only [Visit.andThen]
    cases (first entries st).result with
    | error fault => exact head.store st
    | ok found => exact view.trans' (head.store st) ((further st).store _)
  · intro st st' agree after same
    cases outcome : (first entries st).result with
    | error fault =>
        simp only [Visit.andThen, outcome] at same ⊢
        obtain ⟨later, keeps, again⟩ :=
          head.again st st' agree after fun n mem => same n (List.mem_append_left more mem)
        refine ⟨later, keeps, ?_⟩
        simp only [again, outcome]
    | ok found =>
        simp only [Visit.andThen, outcome] at same ⊢
        obtain ⟨between, keeps, again⟩ := head.again st st' agree after fun n mem =>
          (same n (List.mem_append_left more mem)).trans (stays st n mem)
        obtain ⟨later, keepsToo, againToo⟩ := (further st).again (first entries st).store between
          (view.trans' (view.trans' (view.symm' (head.store st)) agree) keeps) after
          fun n mem => same n (List.mem_append_right names mem)
        refine ⟨later, view.trans' keeps keepsToo, ?_⟩
        simp only [again, outcome, againToo, Visit.map]

/-- Items that are asked in order can be asked again: they are asked up to the same one. -/
theorem Walk.allItems_repeats {view : Setoid Store} {walk : Walk Bool} {items : List Value}
    (each : ∀ v ∈ items, Repeats view walk v) : Repeats view (Walk.allItems walk) items := by
  induction items with
  | nil => exact .of_unchanged fun _ => rfl
  | cons v rest ih =>
      rw [List.forall_mem_cons] at each
      have others := ih each.2
      have first := each.1
      constructor
      · intro st
        by_cases passed : (walk v st).result = .ok true
        · simp only [allItems, passed]
          exact view.trans' (first.store st) (others.store _)
        · rw [allItems_of_stops passed]
          exact first.store st
      · intro st st' agree
        obtain ⟨between, keeps, again⟩ := first.again st st' agree
        by_cases passed : (walk v st).result = .ok true
        · obtain ⟨later, keepsToo, againToo⟩ := others.again (walk v st).store between
            (view.trans' (view.trans' (view.symm' (first.store st)) agree) keeps)
          refine ⟨later, view.trans' keeps keepsToo, ?_⟩
          simp only [allItems, passed, again, againToo]
        · refine ⟨between, keeps, ?_⟩
          have stops : (walk (walk v st).left st').result ≠ .ok true := by
            rw [again]
            exact passed
          rw [allItems_of_stops passed, allItems_of_stops stops, again]

theorem Walk.ofItems_repeats {view : Setoid Store} {walk : Walk Bool}
    (each : ∀ x, x.unshared = true → Repeats view walk x) {v : Value} (own : v.unshared = true) :
    Repeats view (Walk.ofItems walk) v := by
  have together (items : List Value) (own : allUnshared items = true) :=
    Walk.allItems_repeats fun x mem => each x ((allUnshared_iff items).mp own x mem)
  cases v with
  | list items =>
      refine ⟨(together items own).store, fun st st' agree => ?_⟩
      obtain ⟨later, keeps, again⟩ := (together items own).again st st' agree
      exact ⟨later, keeps, congrArg (Visit.embed Value.list) again⟩
  | tuple items =>
      refine ⟨(together items own).store, fun st st' agree => ?_⟩
      obtain ⟨later, keeps, again⟩ := (together items own).again st st' agree
      exact ⟨later, keeps, congrArg (Visit.embed Value.tuple) again⟩
  | shared cell => cases own
  | _ => exact .of_unchanged fun _ => rfl

/-! ## One rule -/

namespace Rule

variable {r : Rule}

theorem valueIn_congr {before after : Entries} (same : after.get? r.name = before.get? r.name) :
    r.valueIn after = r.valueIn before := by
  rw [valueIn, valueIn, same]

/-- A rule says the same in two stores if its own message is the same in them. -/
theorem report_congr {st st' : Store} (heads : ∀ m, r.message = some m → st'.head m = st.head m)
    (text : String) : r.report st' text = r.report st text := by
  have same : r.message.map st'.head = r.message.map st.head := by
    cases own : r.message with
    | none => rfl
    | some m => rw [Option.map_some, Option.map_some, heads m own]
  rw [report, report, same]

theorem reportAll_congr {st st' : Store}
    (heads : ∀ m, r.message = some m → st'.head m = st.head m) (found : List Message) :
    r.reportAll st' found = r.reportAll st found := by
  simp only [reportAll, report_congr heads]

end Rule

section

variable [UserCode]

/-- A producer whose calls behave alike whatever the store holds: they all fail, and send no
signal, or they all give equal values. What it gives is not shared, and it leaves a store that
looks the same. -/
structure Callable.Steady (view : Setoid Store) (f : Callable) : Prop where
  alike : ∀ st st' v, (f.produce st).1 = .ok v →
    ∃ w, (f.produce st').1 = .ok w ∧ (v = w ∨ v.equal w = true)
  fresh : f.Gives (·.unshared = true)
  keeps : ∀ st, view st (f.produce st).2

/-- A rule without a custom validator, whose producer, if it has one, is steady, and whose
message is the same in all stores that look the same. -/
structure Rule.Steady (view : Setoid Store) (r : Rule) : Prop where
  custom : r.custom = none
  default : ∀ f, r.default = some (.callable f) → f.Steady view
  message : ∀ st st' m, view st st' → r.message = some m → st'.head m = st.head m

/-- A schema whose names can be told apart and whose rules are steady. -/
structure Schema.Steady (view : Setoid Store) (s : Schema) : Prop where
  names : s.NamesApart
  rules : ∀ r ∈ s.rules, r.Steady view

variable {view : Setoid Store}

theorem Rule.Steady.selfContained {r : Rule} (steady : r.Steady view) : r.SelfContained where
  custom := steady.custom
  default f isProducer := (steady.default f isProducer).fresh

theorem Schema.Steady.selfContained {s : Schema} (steady : s.Steady view) : s.SelfContained where
  names := steady.names
  rules r mem := (steady.rules r mem).selfContained

namespace Rule

variable {r : Rule}

theorem Steady.defaultValue_keeps (steady : r.Steady view) (st : Store) :
    view st (r.defaultValue st).2 := by
  rw [defaultValue]
  split
  next f isProducer =>
    have keeps := (steady.default f isProducer).keeps st
    generalize f.produce st = outcome at keeps
    obtain ⟨made, left⟩ := outcome
    cases made <;> exact keeps
  all_goals exact view.refl' st

/-- The default of a steady rule is the same in every store, up to equality. -/
theorem Steady.defaultValue_alike (steady : r.Steady view) (st st' : Store) {v : Option Value}
    (own : (r.defaultValue st).1 = .ok v) :
    ∃ w, (r.defaultValue st').1 = .ok w ∧
      Option.Rel (fun v w => v = w ∨ v.equal w = true) v w := by
  have gives := steady.selfContained.default
  rw [defaultValue] at own ⊢
  split at own
  next f isProducer =>
    have alike := (steady.default f isProducer).alike st st'
    have alikeBack := (steady.default f isProducer).alike st' st
    have quiet := (gives f isProducer).quiet
    have signalled := quiet st
    have signalledToo := quiet st'
    generalize f.produce st = outcome at own alike alikeBack signalled
    generalize f.produce st' = again at alike alikeBack signalledToo
    obtain ⟨made, left⟩ := outcome
    obtain ⟨madeToo, leftToo⟩ := again
    cases made with
    | ok x =>
        cases own
        obtain ⟨y, rfl, same⟩ := alike x rfl
        exact ⟨some y, rfl, .some same⟩
    | error fault =>
        simp only [signalled fault rfl, Bool.false_eq_true, if_false, Except.ok.injEq] at own
        subst own
        cases madeToo with
        | ok y =>
            obtain ⟨x, made, -⟩ := alikeBack y rfl
            cases made
        | error other =>
            refine ⟨none, ?_, .none⟩
            simp [signalledToo other rfl]
  all_goals
    cases own
    refine ⟨_, rfl, ?_⟩
    first
    | exact .none
    | exact .some (.inl rfl)
    | split <;> first | exact .none | exact .some (.inl rfl)

theorem Steady.prepare_keeps (steady : r.Steady view) (writable : Bool) (entries : Entries)
    (st : Store) : view st (r.prepare writable entries st).2 := by
  have keeps := steady.defaultValue_keeps st
  rw [prepare]
  split
  · generalize r.defaultValue st = made at keeps
    split <;> exact keeps
  · exact view.refl' st

/-- Where a rule has written its default, or has none to write, it writes nothing again: a
default that is `null` is put into its own place. -/
theorem Steady.prepare_again (steady : r.Steady view) (known : r.name.identity?.isSome = true)
    {writable : Bool} {entries after : Entries} {st : Store}
    (same : after.get? r.name = (r.prepare writable entries st).1.get? r.name) (st' : Store) :
    (r.prepare writable after st').1 = after := by
  rcases r.prepare_cases writable after st' with same | ⟨w, default, canWrite, absent, written⟩
  · exact same
  · obtain ⟨i, identity⟩ := Option.isSome_iff_exists.mp known
    obtain ⟨_, alike, @⟨_, v, -⟩⟩ := steady.defaultValue_alike st' st default
    have absentBefore : r.valueIn entries = none := by
      by_contra present
      obtain ⟨x, found⟩ := Option.ne_none_iff_exists'.mp present
      rw [(start_of_present found writable st).2] at same
      rw [valueIn_congr same] at absent
      exact present absent
    -- The first time the default was written too, so it is null if it still counts as absent.
    have first : (r.prepare writable entries st).1 = entries.put r.name v := by
      generalize outcome : r.defaultValue st = made at alike
      obtain ⟨result, left⟩ := made
      cases alike
      simp [prepare, canWrite, absentBefore, outcome]
    rw [first, Entries.get?_put_self identity] at same
    have isNull : v = .null := by
      rw [valueIn, same] at absent
      split at absent
      next found => exact Option.some.inj found
      next => cases absent
    subst isNull
    have alsoNull : w = .null := by
      obtain ⟨x, same, related⟩ := steady.defaultValue_alike st st' alike
      cases default.symm.trans same
      cases related with
      | some related => exact related.elim Eq.symm Value.eq_null_of_equal
    rw [written, alsoNull, Entries.put_get?_self same]

/-- If the check of its type can be repeated, a rule can be applied again. -/
theorem Steady.walk_repeats_of_check (steady : r.Steady view)
    (known : r.name.identity?.isSome = true)
    (checked : ∀ v, v.unshared = true → Repeats view (r.type.check r r.name) v)
    (s : Schema) {home : Home} (owned : home.isOwned = true) {entries : Entries}
    (own : entriesUnshared entries = true) :
    RepeatsUnder view [r.name] (r.walk s home) entries := by
  obtain ⟨i, identity⟩ := Option.isSome_iff_exists.mp known
  have gives := steady.selfContained.default
  have ownBegun (st : Store) := Rule.prepare_unshared steady.selfContained own home.writable st
  have keeps := steady.prepare_keeps home.writable
  have walked (st : Store) := walk_eq_of_custom owned gives steady.custom s entries st
  have value (st : Store) {v : Value}
      (present : r.valueIn (r.prepare home.writable entries st).1 = some v) :
      v.unshared = true := by
    obtain ⟨there, -⟩ := (valueIn_eq_some_iff r _ v).mp present
    obtain ⟨key, mem⟩ := Entries.mem_of_get? there
    exact (entriesUnshared_iff _).mp (ownBegun st) (key, v) mem
  constructor
  · intro st
    rw [walked]
    dsimp only
    split
    · exact keeps entries st
    next v present => exact view.trans' (keeps entries st) ((checked v (value st present)).store _)
  · intro st st' agree after same
    rw [List.forall_mem_singleton] at same
    rw [walk_eq_of_custom owned gives steady.custom]
    have walkedHere := walked st
    cases present : r.valueIn (r.prepare home.writable entries st).1 with
    | none =>
        simp only [present] at walkedHere
        rw [walkedHere] at same ⊢
        refine ⟨_, keeps after st', ?_⟩
        have agreeBegun :=
          view.trans' (view.trans' (view.symm' (keeps entries st)) agree) (keeps after st')
        simp only [steady.prepare_again known same st', valueIn_congr same, Visit.ofExcept, present,
          Rule.report_congr (steady.message _ _ · agreeBegun)]
    | some v =>
        simp only [present] at walkedHere
        rw [walkedHere] at same ⊢
        have repeats := checked v (value st present)
        obtain ⟨there, notNull⟩ := (valueIn_eq_some_iff r _ v).mp present
        have holds : after.get? r.name =
            some (r.type.check r r.name v (r.prepare home.writable entries st).2).left :=
          same.trans (Entries.get?_put_self identity _ _)
        have found := (valueIn_eq_some_iff r after _).mpr
          ⟨holds, TypeSpec.check_left_ne_null r.type r r.name notNull _⟩
        obtain ⟨later, agrees, again⟩ := repeats.again (r.prepare home.writable entries st).2 st'
          (view.trans' (view.symm' (keeps entries st)) agree)
        refine ⟨later, agrees, ?_⟩
        have agreeLeft := view.trans'
          (view.trans' (view.symm' (view.trans' (keeps entries st) (repeats.store _))) agree) agrees
        simp only [(start_of_present found home.writable st').2, found]
        simp only [Visit.embed, Visit.check] at again ⊢
        rw [again, Entries.put_get?_self holds]
        simp only [Rule.reportAll_congr (steady.message _ _ · agreeLeft)]

end Rule

/-! ## Rules in order -/

/-- If each of some rules can be applied again, they can be in order. -/
theorem walkRules_repeats_of_each {rules : List Rule}
    (known : ∀ r ∈ rules, r.name.identity?.isSome = true)
    (apart : (rules.map fun r => r.name.identity?).Nodup)
    (custom : ∀ r ∈ rules, r.custom = none) (s : Schema) {home : Home}
    (owned : home.isOwned = true)
    (each : ∀ r ∈ rules, ∀ entries, entriesUnshared entries = true →
      RepeatsUnder view [r.name] (r.walk s home) entries ∧
        ∀ st, entriesUnshared (r.walk s home entries st).left = true)
    {entries : Entries} (own : entriesUnshared entries = true) :
    RepeatsUnder view (rules.map (·.name)) (walkRules rules s home) entries := by
  induction rules generalizing entries with
  | nil => exact ⟨view.refl', fun _ st' _ _ _ => ⟨st', view.refl' st', rfl⟩⟩
  | cons r rest ih =>
      rw [List.forall_mem_cons] at known custom each
      obtain ⟨head, ownLeft⟩ := each.1 entries own
      have further (st : Store) :=
        ih known.2 (List.nodup_cons.mp apart).2 custom.2 each.2 (ownLeft st)
      have stays (st : Store) := (walkRules_onlyUnder known.2 custom.2 s owned
        (r.walk s home entries st).left (r.walk s home entries st).store).get?_of_cons known.1 apart
      exact head.append further fun st => List.forall_mem_singleton.mpr (stays st)

/-! ## Schemas -/

namespace Schema

variable {s : Schema}

omit [UserCode] in
/-- What is written under the names of a schema changes nothing about the keys that it does
not declare. -/
theorem undeclared_congr (known : ∀ r ∈ s.rules, r.name.identity?.isSome = true)
    {before after : Entries} (only : Entries.OnlyUnder (s.rules.map (·.name)) before after) :
    s.undeclared after = s.undeclared before := by
  obtain ⟨more, keys, own⟩ := only.keys_eq
  have declared : more.filter (!s.declares ·) = [] := by
    rw [List.filter_eq_nil_iff]
    intro key mem
    obtain ⟨r, inRules, rfl⟩ := List.mem_map.mp (own key mem)
    simpa [declares] using ⟨r, inRules, Value.equal_self (known r inRules)⟩
  rw [undeclared, undeclared, keys, List.filter_append, declared, List.append_nil]

/-- A schema can go again over entries that hold what was left under its names, if it finds
the same keys undeclared. -/
theorem walkEntries_again {home : Home} {entries : Entries}
    (repeats : RepeatsUnder view (s.rules.map (·.name)) (walkRules s.rules s home) entries)
    {st st' : Store} (agree : view st st') {after : Entries}
    (same : ∀ r ∈ s.rules, after.get? r.name = (s.walkEntries home entries st).left.get? r.name)
    (keys : s.undeclared after = s.undeclared entries) :
    ∃ later, view st' later ∧ s.walkEntries home after st' =
      ⟨(s.walkEntries home entries st).result, after, later,
        (s.walkEntries home entries st).tallies⟩ := by
  rw [walkEntries_left] at same
  obtain ⟨later, agrees, again⟩ := repeats.again st st' agree after (List.forall_mem_map.mpr same)
  refine ⟨later, agrees, ?_⟩
  rw [walkEntries, walkEntries, again, keys, Visit.tally, Visit.tally]
  cases outcome : (walkRules s.rules s home entries st).result <;>
    simp [Visit.map, outcome, Except.map]

/-- If the checks of its rules can be repeated, the rules of a schema can be. -/
theorem walkRules_repeats (steady : s.Throughout (Schema.Steady view))
    (each : ∀ r ∈ s.rules, ∀ v, v.unshared = true → Repeats view (r.type.check r r.name) v)
    {home : Home} (owned : home.isOwned = true) {entries : Entries}
    (own : entriesUnshared entries = true) :
    RepeatsUnder view (s.rules.map (·.name)) (walkRules s.rules s home) entries := by
  have here := ((Schema.throughout_iff s).mp steady).1
  refine walkRules_repeats_of_each here.names.known here.names.apart
    (fun r mem => (here.rules r mem).custom) s owned
    (fun r mem entries own => ⟨?_, fun st => ?_⟩) own
  · exact (here.rules r mem).walk_repeats_of_check (here.names.known r mem) (each r mem) s owned own
  · exact Schema.walk_rule_unshared (steady.imp fun _ own => own.selfContained) mem owned own st

/-- If the checks of its rules can be repeated, a schema can be. -/
theorem walk_repeats_of_each (steady : s.Throughout (Schema.Steady view))
    (each : ∀ r ∈ s.rules, ∀ v, v.unshared = true → Repeats view (r.type.check r r.name) v)
    {v : Value} (own : v.unshared = true) : Repeats view s.walk v := by
  have here := ((Schema.throughout_iff s).mp steady).1
  have custom := fun r mem => (here.rules r mem).custom
  have entriesRepeat (home : Home) (owned : home.isOwned = true) (entries : Entries)
      (own : entriesUnshared entries = true) : Repeats view (s.walkEntries home) entries := by
    have repeats := walkRules_repeats steady each owned own
    refine ⟨fun st => ?_, fun st st' agree => ?_⟩
    · rw [walkEntries_store]
      exact repeats.store st
    · have only := walkRules_onlyUnder here.names.known custom s owned entries st
      rw [← walkEntries_left] at only
      exact walkEntries_again repeats agree (fun _ _ => rfl)
        (undeclared_congr here.names.known only)
  rw [walk_eq]
  cases v with
  | object entries =>
      exact (entriesRepeat .object rfl entries own).embed Value.object (fun _ => rfl) fun _ _ => rfl
  | frozen entries =>
      exact (entriesRepeat .frozen rfl entries own).embed Value.frozen (fun _ => rfl) fun _ _ => rfl
  | schema id t =>
      have ownEntries : entriesUnshared (Value.schemaEntries t) = true := by
        rw [entriesUnshared_iff]
        intro e mem
        obtain ⟨q, -, rfl⟩ := List.mem_map.mp mem
        rfl
      have repeats := entriesRepeat (.schema id t) rfl (Value.schemaEntries t) ownEntries
      -- Only the entries of a schema are walked over, so what is left is written nowhere.
      have same (st : Store) : (s.walkEntries (.schema id t) (Value.schemaEntries t) st).left =
          Value.schemaEntries t := by
        rw [walkEntries_left]
        exact (walkRules_schemaEntries (fun r mem => (here.rules r mem).selfContained) s id t st).1
      refine repeats.embed (fun _ => Value.schema id t) (fun _ => rfl) fun st st' => ?_
      rw [same]
      rfl
  | shared cell => cases own
  | _ => exact .of_unchanged fun _ => rfl

end Schema

/-! ## Types -/

/-- Data that are a tree are left as one. -/
theorem Schema.walk_left_unshared (s : Schema) (contained : s.Throughout Schema.SelfContained)
    {v : Value} (own : v.unshared = true) (st : Store) : (s.walk v st).left.unshared = true := by
  have judged : (s.walk v st).Judges [] (s.Conforms st) (·.unshared = true) (s.fillAll v st) :=
    s.walk_judges contained v st own
  exact judged.kept

theorem TypeSpec.ofItems_left_unshared (item : TypeSpec)
    (contained : item.Throughout Schema.SelfContained) {v : Value} (own : v.unshared = true)
    (st : Store) : (Walk.ofItems item.takes v st).left.unshared = true := by
  have judged : (Walk.ofItems item.takes v st).Judges true
      ((TypeSpec.array (some item)).AdmitsItem st) (·.unshared = true)
      ((TypeSpec.array (some item)).fillAll v st) :=
    Walk.ofItems_judges (item.takes_judges contained) own st
  exact judged.kept

/-- A run over data that are a tree can be repeated. So can the check of a type, and asking
whether a type takes a value. -/
theorem Schema.repeats :
    (∀ s : Schema, s.Throughout (Schema.Steady view) → ∀ v, v.unshared = true →
      Repeats view s.walk v) ∧
    ∀ t : TypeSpec, (t.Throughout (Schema.Steady view) → ∀ v, v.unshared = true →
      (∀ r key, Repeats view (t.check r key) v) ∧ Repeats view t.takes v) := by
  refine Schema.induction ⟨?schema, ?scalar, ?nested, ?untyped, ?array⟩
  case schema =>
    intro s below steady v own
    have each := ((Schema.throughout_iff s).mp steady).2
    exact Schema.walk_repeats_of_each steady
      (fun r mem v own => (below r mem (each r mem) v own).1 r r.name) own
  case scalar =>
    intro kind _ v own
    constructor
    · intro r key
      have same (st : Store) : (TypeSpec.scalar kind).check r key v st =
          Visit.ofExcept ((r.scalarFailures key kind v).map (·.map .text)) v st := by
        rw [TypeSpec.check, st.head_of_unshared own]
      exact .of_unchanged same
    · have same (st : Store) :
          (TypeSpec.scalar kind).takes v st = Visit.ofExcept (kind.fits v) v st := by
        rw [TypeSpec.takes, st.head_of_unshared own]
      exact .of_unchanged same
  case nested =>
    intro s below steady v own
    have contained := steady.imp fun _ own => own.selfContained
    have repeats := below steady v own
    refine ⟨fun r key => ?_, repeats.of_result (·.map List.isEmpty) (fun _ => rfl) fun _ _ => rfl⟩
    cases mapping : v.isMapping with
    | false =>
        have same (st : Store) : (TypeSpec.nested s).check r key v st =
            Visit.done [.text (mismatchText key v Scalar.object.label)] v st := by
          rw [TypeSpec.check, st.head_of_unshared own, mapping]
          rfl
        exact .of_unchanged same
    | true =>
        refine repeats.of_result (·.bind fun violations => if violations.isEmpty then .ok []
          else (foldMessages key (flattenMessages violations)).map ([·])) (fun st => ?_)
          fun st st' => ?_
        · rw [TypeSpec.check, st.head_of_unshared own, mapping]
          rfl
        · rw [TypeSpec.check, st'.head_of_unshared (s.walk_left_unshared contained own st),
            s.walk_left_isMapping (Value.ne_shared own), mapping]
          rfl
  case untyped =>
    intro _ v own
    constructor
    · intro r key
      cases array : v.items? with
      | none =>
          have same (st : Store) : (TypeSpec.array none).check r key v st =
              Visit.done [.text (mismatchText key v Kind.array.label)] v st := by
            rw [TypeSpec.check, st.head_of_unshared own, array]
          exact .of_unchanged same
      | some items =>
          have same (st : Store) : (TypeSpec.array none).check r key v st =
              Visit.done ((r.lengthFailures key items.length).map .text) v st := by
            rw [TypeSpec.check, st.head_of_unshared own, array]
          exact .of_unchanged same
    · have same (st : Store) : (TypeSpec.array none).takes v st = Visit.done v.isArray v st := by
        rw [TypeSpec.takes, st.head_of_unshared own]
      exact .of_unchanged same
  case array =>
    intro item below steady v own
    have contained := TypeSpec.Throughout.imp (fun _ own => own.selfContained) steady
    have repeats := Walk.ofItems_repeats (fun x own => (below steady x own).2) own
    refine ⟨fun r key => ?_, repeats⟩
    cases array : v.items? with
    | none =>
        have same (st : Store) : (TypeSpec.array (some item)).check r key v st =
            Visit.done [.text (mismatchText key v Kind.array.label)] v st := by
          rw [TypeSpec.check, st.head_of_unshared own, array]
        exact .of_unchanged same
    | some items =>
        refine repeats.of_result (·.map fun all => (r.lengthFailures key items.length).map .text ++
          (if all then [] else [.text (itemText key item)])) (fun st => ?_) fun st st' => ?_
        · rw [TypeSpec.check, st.head_of_unshared own, array]
          rfl
        · obtain ⟨left, arrayLeft, length⟩ := Walk.ofItems_length item.takes array st
          rw [TypeSpec.check, st'.head_of_unshared (item.ofItems_left_unshared contained own st),
            arrayLeft, ← length]
          rfl

/-- Validating again what a run has left comes to the same outcome, with the same violations
in the same order, and leaves the same data, in a store that looks the same. A report shows
the data as they were left. -/
theorem Schema.validate_again {view : Setoid Store} {s : Schema}
    (steady : s.Throughout (Schema.Steady view)) {v : Value} (tree : v.unshared = true)
    (st : Store) :
    let first := s.validate v st
    let again := s.validate first.left first.store
    again.result = first.result ∧ again.left = first.left ∧ again.tallies = first.tallies ∧
      view first.store again.store ∧
      ∀ report, first.result = .ok report → report.data = first.left := by
  have repeats := Schema.repeats.1 s steady v tree
  obtain ⟨later, agrees, again⟩ := repeats.again st (s.walk v st).store (repeats.store st)
  simp only [validate, Visit.map, again]
  refine ⟨trivial, trivial, trivial, agrees, fun report reported => ?_⟩
  obtain ⟨found, -, rfl⟩ := Declaration.map_eq_ok.mp reported
  rfl

/-- The producer that a type is gives the same empty value on every call. -/
theorem Callable.steady_token (t : TypeToken) : (Callable.token t).Steady ⊥ where
  alike st st' v made := by
    refine ⟨v, ?_, .inl rfl⟩
    cases t <;> cases made <;> rfl
  fresh := by
    constructor
    · intro st v made
      cases t <;> cases made <;> rfl
    · intro st fault failed
      cases t <;> cases failed <;> rfl
  keeps st := by cases t <;> rfl

theorem Rule.steady_of_isSimple {r : Rule} (simple : r.isSimple = true) : r.Steady ⊥ where
  custom := (selfContained_of_isSimple simple).custom
  default f isProducer := by
    cases f with
    | token t => exact Callable.steady_token t
    | function id name => simp [isSimple, isProducer] at simple
  message := by
    rintro st _ m rfl -
    rfl

end

open WithoutUserCode in
/-- The parcels are invalid, and their second item keeps lacking its default. -/
theorem validate_again_parcels :
    ∃ s, Declaration.compile parcelsDeclaration true = .ok s ∧ s.Throughout (Schema.Steady ⊥) ∧
      parcels.unshared = true ∧
      let first := s.validate parcels Store.empty
      first.result.map (·.valid) = .ok false ∧
        s.validate first.left first.store = first := by
  have steady (s : Schema) (compiled : Declaration.compile parcelsDeclaration true = .ok s) :
      s.Throughout (Schema.Steady ⊥) := by
    cases compiled
    have simple {rules : List Rule} (all : rules.all Rule.isSimple = true) :
        ∀ r ∈ rules, r.Steady ⊥ := fun r mem =>
      Rule.steady_of_isSimple (List.all_eq_true.mp all r mem)
    refine ⟨⟨⟨?_, ?_⟩, simple rfl⟩, ⟨⟨⟨?_, ?_⟩, simple rfl⟩, trivial, trivial, trivial⟩,
      ⟨⟨⟨?_, ?_⟩, simple rfl⟩, trivial, trivial⟩, trivial⟩ <;>
      simp [Value.identity?, Declaration.requiredRule, Rule.ofType]
  refine ⟨_, rfl, steady _ rfl, rfl, rfl, ?_⟩
  -- Stores that look the same in the finest view are the same.
  have tree : parcels.unshared = true := rfl
  obtain ⟨result, left, tallies, store, -⟩ := Schema.validate_again (steady _ rfl) tree Store.empty
  exact Visit.ext result left store.symm tallies

end DataContract
