/-
# What a rule leaves alone

Applying a rule writes under the name of the rule and nowhere else, and keeps the keys
in their places; a name that was missing goes to the end. The same holds of some rules
and their names, and of writing defaults.

All this is said of a mapping in hand: of one that stands in a cell others may write to
any part meanwhile.
-/

import DataContract.Proofs.Validation.Conformity

set_option autoImplicit false

namespace DataContract

/-- The second entries differ from the first only by what stands under some names, and
have at most names that were missing as further keys, at the end. -/
structure Entries.OnlyUnder (names : List Value) (before after : Entries) : Prop where
  get?_eq : ∀ (m : Value) (j : Identity), m.identity? = some j →
    (∀ n ∈ names, n.identity? ≠ some j) → after.get? m = before.get? m
  keys_eq : ∃ more, after.keys = before.keys ++ more ∧ ∀ key ∈ more, key ∈ names

namespace Entries.OnlyUnder

theorem refl (names : List Value) (entries : Entries) : OnlyUnder names entries entries :=
  ⟨fun _ _ _ _ => rfl, [], by simp⟩

theorem trans {names : List Value} {a b c : Entries} (first : OnlyUnder names a b)
    (second : OnlyUnder names b c) : OnlyUnder names a c := by
  obtain ⟨more, keys, own⟩ := first.keys_eq
  obtain ⟨further, keys', own'⟩ := second.keys_eq
  refine ⟨fun m j known apart => ?_, more ++ further, ?_, ?_⟩
  · rw [second.get?_eq m j known apart, first.get?_eq m j known apart]
  · rw [keys', keys, List.append_assoc]
  · intro key mem
    exact (List.mem_append.mp mem).elim (own key) (own' key)

theorem mono {names more : List Value} {a b : Entries} (subset : ∀ n ∈ names, n ∈ more)
    (only : OnlyUnder names a b) : OnlyUnder more a b := by
  obtain ⟨new, keys, own⟩ := only.keys_eq
  exact ⟨fun m j known apart => only.get?_eq m j known fun n mem => apart n (subset n mem),
    new, keys, fun key mem => subset key (own key mem)⟩

theorem put {n : Value} (known : n.identity?.isSome = true) (entries : Entries) (v : Value) :
    OnlyUnder [n] entries (entries.put n v) := by
  obtain ⟨i, identity⟩ := Option.isSome_iff_exists.mp known
  constructor
  · intro m j other apart
    refine Entries.get?_put_of_ne identity other ?_ entries v
    rintro rfl
    exact apart n List.mem_cons_self identity
  · rw [Entries.keys_put]
    split
    · exact ⟨[], by simp⟩
    · exact ⟨[n], rfl, fun key mem => mem⟩

end Entries.OnlyUnder

/-- What a part that was done is followed by is all that happens. -/
theorem Visit.andThen_done {σ α β : Type} (a : α) (left : σ) (st : Store)
    (next : α → σ → Store → Visit σ β) : (Visit.done a left st).andThen next = next a left st :=
  rfl

/-- Nothing found before changes nothing. -/
theorem Visit.map_nil_append {σ α : Type} (visit : Visit σ (List α)) :
    visit.map ([] ++ ·) = visit := by
  obtain ⟨result, left, store, tallies⟩ := visit
  cases result <;> rfl

/-- A tally is all that counting adds. -/
theorem Visit.tally_same {σ α : Type} (w : Visit σ α) (count : α → Tally) :
    (w.tally count).result = w.result ∧ (w.tally count).left = w.left ∧
      (w.tally count).store = w.store := by
  rw [tally]
  cases outcome : w.result <;> simp [outcome]

/-- What was found is looked at further, and only the passing answer passes again. -/
theorem Visit.check_passes_iff {σ α β : Type} (w : Visit σ α) {next : α → Except Fault β} {pass : α}
    {again : β} (only : ∀ a, next a = .ok again ↔ a = pass) :
    (w.check next).result = .ok again ↔ w.result = .ok pass := by
  rw [check]
  cases w.result with
  | error fault => simp [Except.bind]
  | ok a => simpa [Except.bind] using only a

/-- What was found is said in another way, and only the passing answer passes again. -/
theorem Visit.map_passes_iff {σ α β : Type} (w : Visit σ α) {f : α → β} {pass : α} {again : β}
    (only : ∀ a, f a = again ↔ a = pass) :
    (w.map f).result = .ok again ↔ w.result = .ok pass := by
  rw [map]
  cases w.result with
  | error fault => simp [Except.map]
  | ok a => simpa [Except.map] using only a

/-- Nothing is found in two parts together exactly if nothing is found in either. -/
theorem Visit.map_append_eq_nil_iff {σ β : Type} (w : Visit σ (List β)) (found : List β) :
    (w.map (found ++ ·)).result = .ok [] ↔ found = [] ∧ w.result = .ok [] := by
  rw [map]
  cases w.result <;> simp [Except.map]

/-- The outcome of two parts together. -/
theorem Visit.append_result {σ β : Type} (first : Visit σ (List β))
    (next : σ → Store → Visit σ (List β)) :
    (first.andThen fun found x st => (next x st).map (found ++ ·)).result =
      first.result.bind fun found => (next first.left first.store).result.map (found ++ ·) := by
  rw [andThen]
  cases outcome : first.result <;> rfl

/-- Items in a cell are asked about up to some number of them, which the list does not exceed. -/
theorem Walk.ofItems_room (walk : Walk Bool) (cell : Nat) (st : Store) :
    ∃ room, (st.items (.shared cell)).length ≤ room ∧
      walk.ofItems (.shared cell) st =
        if (st.head (.shared cell)).isArray then
          (walk.allInCell cell room 0 st).embed fun _ => .shared cell
        else Visit.done false (.shared cell) st := by
  refine ⟨(st.items (.shared cell)).length + greatestLength, Nat.le_add_right _ _, ?_⟩
  rw [ofItems]

/-! ## Mappings in hand -/

namespace Home

/-- Whether a mapping is in hand. -/
def isOwned : Home → Bool
  | .cell _ => false
  | _ => true

theorem isOwned_object : Home.object.isOwned = true := rfl

theorem isOwned_frozen : Home.frozen.isOwned = true := rfl

theorem isOwned_schema (id : Nat) (s : Schema) : (Home.schema id s).isOwned = true := rfl

/-- Whether a mapping in hand can be written to. -/
def writable : Home → Bool
  | .object => true
  | _ => false

variable {home : Home} (owned : home.isOwned = true)

include owned

theorem canWrite_of_owned (st : Store) : home.canWrite st = home.writable := by
  cases home with
  | cell c => cases owned
  | _ => rfl

theorem look_of_owned (entries : Entries) (st : Store) : home.look entries st = entries := by
  cases home with
  | cell c => cases owned
  | _ => rfl

theorem write_of_owned (entries : Entries) (st : Store) :
    home.write entries st = (entries, st) := by
  cases home with
  | cell c => cases owned
  | _ => rfl

/-- A value goes back into its place, as it does where it is put there without being asked
whether it can have changed. -/
theorem putBack_of_owned {key v left : Value} {entries : Entries}
    (there : entries.get? key = some v) (same : v.isContainer = false → left = v) (st : Store) :
    home.putBack key v true entries left st = (entries.put key left, st) := by
  rw [putBack, Bool.true_and]
  split
  · rw [write_of_owned owned, look_of_owned owned]
  next other =>
    rw [same (Bool.eq_false_of_not_eq_true other), Entries.put_get?_self there]

end Home

/-- A value whose home is known is what stands there, and the entries are those it has now. -/
theorem Value.home?_spec {v : Value} {st : Store} {home : Home} {entries : Entries}
    (found : v.home? st = some (home, entries)) :
    home.value entries = v ∧ home.look entries st = entries ∧
      (st.head v).entries? = some entries := by
  cases v with
  | shared cell =>
      obtain ⟨own, mapping, same⟩ := Option.map_eq_some_iff.mp found
      cases same
      exact ⟨rfl, by rw [Home.look, mapping, Option.getD_some], mapping⟩
  | object _ | frozen _ | schema _ _ =>
      cases found
      exact ⟨rfl, rfl, rfl⟩
  | _ => cases found

theorem Value.home?_eq_none_iff (v : Value) (st : Store) :
    v.home? st = none ↔ (st.head v).entries? = none := by
  cases v with
  | shared cell => exact Option.map_eq_none_iff
  | _ => simp [home?, Store.head, entries?]

theorem Value.ne_shared {v : Value} (own : v.unshared = true) (cell : Nat) : v ≠ .shared cell := by
  rintro rfl
  cases own

theorem Value.isOwned_of_home? {v : Value} {st : Store} {home : Home} {entries : Entries}
    (own : v.unshared = true) (found : v.home? st = some (home, entries)) :
    home.isOwned = true := by
  cases v with
  | shared cell => cases own
  | object _ | frozen _ | schema _ _ =>
      cases found
      rfl
  | _ => cases found

theorem Rule.valueIn_eq_some_iff (r : Rule) (entries : Entries) (v : Value) :
    r.valueIn entries = some v ↔ entries.get? r.name = some v ∧ v ≠ .null := by
  rw [valueIn]
  split <;> grind

theorem Rule.valueIn_eq_none_iff (r : Rule) (entries : Entries) :
    r.valueIn entries = none ↔ entries.get? r.name = none ∨ entries.get? r.name = some .null := by
  rw [valueIn]
  split <;> simp_all

/-- What is written under the names of the other rules leaves what stands under the name of
the first. -/
theorem Entries.OnlyUnder.get?_of_cons {r : Rule} {rest : List Rule} {before after : Entries}
    (only : Entries.OnlyUnder (rest.map (·.name)) before after)
    (known : r.name.identity?.isSome = true)
    (apart : ((r :: rest).map fun q => q.name.identity?).Nodup) :
    after.get? r.name = before.get? r.name := by
  obtain ⟨i, identity⟩ := Option.isSome_iff_exists.mp known
  rw [List.map_cons, List.nodup_cons] at apart
  refine only.get?_eq r.name i identity fun n mem same => ?_
  obtain ⟨q, inRest, rfl⟩ := List.mem_map.mp mem
  exact apart.1 (List.mem_map.mpr ⟨q, inRest, same.trans identity.symm⟩)

variable [UserCode]

/-- What is no list or mapping in hand is what it was after a check. -/
theorem TypeSpec.check_left_of_not_container (t : TypeSpec) (r : Rule) (key : Value) {v : Value}
    (other : v.isContainer = false) (st : Store) : (t.check r key v st).left = v := by
  cases t with
  | scalar kind => rfl
  | nested s =>
      obtain ⟨rules, flex⟩ := s
      rw [check, Schema.walk]
      split
      · rfl
      · rw [Visit.check, Walk.ofEntries]
        split
        next home entries found =>
          cases v with
          | shared cell =>
              obtain ⟨own, -, same⟩ := Option.map_eq_some_iff.mp found
              cases same
              rfl
          | schema id s =>
              cases found
              rfl
          | object _ | frozen _ => cases other
          | _ => cases found
        · rfl
  | array item =>
      cases item with
      | none =>
          rw [check]
          split <;> rfl
      | some item =>
          rw [check]
          split
          · rfl
          · cases v with
            | list _ | tuple _ => cases other
            | shared cell =>
                rw [Walk.ofItems]
                split <;> rfl
            | _ => rfl

namespace Rule

/-- A rule begins with what it is given, or with a default for an absent value. -/
theorem prepare_cases (r : Rule) (writable : Bool) (entries : Entries) (st : Store) :
    (r.prepare writable entries st).1 = entries ∨
      ∃ v, (r.defaultValue st).1 = .ok (some v) ∧ writable = true ∧ r.valueIn entries = none ∧
        (r.prepare writable entries st).1 = entries.put r.name v := by
  rw [prepare]
  split
  next absent =>
    rw [Bool.and_eq_true, Option.isNone_iff_eq_none] at absent
    generalize r.defaultValue st = made
    split
    next v left => exact .inr ⟨v, rfl, absent.1, absent.2, rfl⟩
    · exact .inl rfl
  · exact .inl rfl

/-- What a rule writes: its default, and below it what its type has to write. -/
theorem fillAll_eq (r : Rule) (writable : Bool) (entries : Entries) (st : Store) :
    r.fillAll writable entries st =
      match r.valueIn (r.prepare writable entries st).1 with
      | none => r.prepare writable entries st
      | some v =>
        let filled := r.type.fillAll v (r.prepare writable entries st).2
        ((r.prepare writable entries st).1.put r.name filled.1, filled.2) := by
  obtain ⟨name, type, required, custom, pattern, min, max, choices, default, message⟩ := r
  rfl

/-- Applying a rule: its default is written, an absent value is reported if it is
required, and a present one is judged, checked and put back. -/
theorem walk_eq (r : Rule) (s : Schema) (home : Home) (entries : Entries) (st : Store) :
    r.walk s home entries st =
      (r.fill home entries st).andThen fun _ entries st =>
        match r.valueIn entries with
        | none =>
          Visit.ofExcept
            (if r.required then (r.report st (missingText r.name)).map ([·]) else .ok []) entries st
        | some v =>
          (r.judgeCustom s home v entries st).andThen fun judged entries st =>
            let checked := (r.type.check r r.name judged.value st).settle
              (home.putBack r.name judged.value judged.inPlace entries)
            (checked.check fun messages => r.reportAll checked.store messages).map
              (judged.found ++ ·) := by
  obtain ⟨name, type, required, custom, pattern, min, max, choices, default, message⟩ := r
  rfl

/-- Whether a rule gets to look at its value: only a signal of its producer keeps it from
that. -/
def start (r : Rule) (writable : Bool) (entries : Entries) (st : Store) : Except Fault Unit :=
  if writable && (r.valueIn entries).isNone then (r.defaultValue st).1.map fun _ => () else .ok ()

/-- A rule begins on a value that is present. -/
theorem start_of_present {r : Rule} {entries : Entries} {v : Value}
    (found : r.valueIn entries = some v) (writable : Bool) (st : Store) :
    r.start writable entries st = .ok () ∧ r.prepare writable entries st = (entries, st) := by
  simp [start, prepare, found]

/-- A producer that sends no signals gives a default or none. -/
theorem ProducerGives.defaultValue {good : Value → Prop} {r : Rule} (gives : r.ProducerGives good)
    (st : Store) : ∃ v, (r.defaultValue st).1 = .ok v := by
  rw [Rule.defaultValue]
  split
  next f isProducer =>
    cases outcome : f.produce st with
    | mk made left =>
        cases made with
        | ok v => exact ⟨some v, rfl⟩
        | error fault =>
            have quiet := (gives f isProducer).quiet st fault (by rw [outcome])
            exact ⟨none, by simp [quiet]⟩
  · exact ⟨_, rfl⟩
  · exact ⟨_, rfl⟩
  · exact ⟨_, rfl⟩

theorem ProducerGives.start {good : Value → Prop} {r : Rule} (gives : r.ProducerGives good)
    (writable : Bool) (entries : Entries) (st : Store) : r.start writable entries st = .ok () := by
  rw [Rule.start]
  split
  · obtain ⟨v, outcome⟩ := gives.defaultValue st
    rw [outcome]
    rfl
  · rfl

section InHand

variable {r : Rule} {home : Home} (owned : home.isOwned = true)

include owned

theorem fill_of_owned (entries : Entries) (st : Store) :
    r.fill home entries st =
      Visit.ofExcept (r.start home.writable entries st) (r.prepare home.writable entries st).1
        (r.prepare home.writable entries st).2 := by
  rw [fill, start, prepare, Home.canWrite_of_owned owned]
  simp only [Home.look_of_owned owned, Home.write_of_owned owned]
  split
  · obtain ⟨result, left⟩ := r.defaultValue st
    cases result with
    | error fault => rfl
    | ok v => cases v <;> rfl
  · rfl

/-- Without a custom validator a present value is only checked and put back. -/
theorem walk_eq_of_owned (plain : r.custom = none) (s : Schema) (entries : Entries) (st : Store) :
    r.walk s home entries st =
      let begun := r.prepare home.writable entries st
      (Visit.ofExcept (r.start home.writable entries st) begun.1 begun.2).andThen
        fun _ entries st =>
        match r.valueIn entries with
        | none =>
          Visit.ofExcept
            (if r.required then (r.report st (missingText r.name)).map ([·]) else .ok []) entries st
        | some v =>
          let checked := r.type.check r r.name v st
          (checked.check fun messages => r.reportAll checked.store messages).embed
            (entries.put r.name) := by
  rw [walk_eq, fill_of_owned owned]
  congr 1
  funext _ entries st
  split
  · rfl
  next v found =>
    have there := ((r.valueIn_eq_some_iff _ v).mp found).1
    have back := Home.putBack_of_owned owned there
      (fun other => r.type.check_left_of_not_container r r.name other st)
    simp only [judgeCustom, plain, Visit.andThen_done, Visit.settle, back]
    exact Visit.map_nil_append _

/-- A producer that sends no signal lets its rule look at its value. -/
theorem walk_eq_of_custom {good : Value → Prop} (gives : r.ProducerGives good)
    (plain : r.custom = none) (s : Schema) (entries : Entries) (st : Store) :
    r.walk s home entries st =
      let begun := r.prepare home.writable entries st
      match r.valueIn begun.1 with
      | none =>
        Visit.ofExcept
          (if r.required then (r.report begun.2 (missingText r.name)).map ([·]) else .ok [])
          begun.1 begun.2
      | some v =>
        let checked := r.type.check r r.name v begun.2
        (checked.check fun messages => r.reportAll checked.store messages).embed
          (begun.1.put r.name) := by
  rw [walk_eq_of_owned owned plain, gives.start]
  rfl

end InHand

variable {r : Rule} (known : r.name.identity?.isSome = true)

include known

theorem prepare_onlyUnder (writable : Bool) (entries : Entries) (st : Store) :
    Entries.OnlyUnder [r.name] entries (r.prepare writable entries st).1 := by
  rcases r.prepare_cases writable entries st with same | ⟨v, -, -, -, written⟩
  · rw [same]
    exact .refl _ _
  · rw [written]
    exact .put known _ _

theorem fillAll_onlyUnder (writable : Bool) (entries : Entries) (st : Store) :
    Entries.OnlyUnder [r.name] entries (r.fillAll writable entries st).1 := by
  have begun := prepare_onlyUnder known writable entries st
  rw [fillAll_eq]
  split
  · exact begun
  · exact begun.trans (.put known _ _)

theorem walk_onlyUnder (plain : r.custom = none) (s : Schema) {home : Home}
    (owned : home.isOwned = true) (entries : Entries) (st : Store) :
    Entries.OnlyUnder [r.name] entries (r.walk s home entries st).left := by
  have begun := prepare_onlyUnder known home.writable entries st
  rw [walk_eq_of_owned owned plain]
  dsimp only [Visit.andThen, Visit.ofExcept]
  split
  · exact begun
  · dsimp only
    split
    · exact begun
    · exact begun.trans (.put known _ _)

end Rule

/-- Applying rules in order writes under their names only, also where a failure stops it. -/
theorem walkRules_onlyUnder {rules : List Rule}
    (known : ∀ r ∈ rules, r.name.identity?.isSome = true) (plain : ∀ r ∈ rules, r.custom = none)
    (s : Schema) {home : Home} (owned : home.isOwned = true) (entries : Entries) (st : Store) :
    Entries.OnlyUnder (rules.map (·.name)) entries (walkRules rules s home entries st).left := by
  induction rules generalizing entries st with
  | nil => exact .refl _ _
  | cons r rest ih =>
      rw [List.forall_mem_cons] at known plain
      have head : Entries.OnlyUnder (r.name :: rest.map (·.name)) entries
          (r.walk s home entries st).left :=
        (Rule.walk_onlyUnder known.1 plain.1 s owned entries st).mono (by simp)
      rw [walkRules, Visit.andThen, List.map_cons]
      split
      · exact head
      · apply head.trans
        apply Entries.OnlyUnder.mono fun _ mem => List.mem_cons_of_mem r.name mem
        exact ih known.2 plain.2 _ _

/-- Writing the defaults of rules in order writes under their names only. -/
theorem fillRules_onlyUnder {rules : List Rule}
    (known : ∀ r ∈ rules, r.name.identity?.isSome = true) (writable : Bool) (entries : Entries)
    (st : Store) :
    Entries.OnlyUnder (rules.map (·.name)) entries (fillRules rules writable entries st).1 := by
  induction rules generalizing entries st with
  | nil => exact .refl _ _
  | cons r rest ih =>
      have head : Entries.OnlyUnder (r.name :: rest.map (·.name)) entries
          (r.fillAll writable entries st).1 :=
        (Rule.fillAll_onlyUnder (known r List.mem_cons_self) writable entries st).mono (by simp)
      rw [fillRules, List.map_cons]
      apply head.trans
      apply Entries.OnlyUnder.mono fun _ mem => List.mem_cons_of_mem r.name mem
      apply ih
      exact fun q mem => known q (List.mem_cons_of_mem r mem)

/-- What a schema does to the entries of a mapping: it reports the keys that it does not
declare, and applies its rules. -/
def Schema.walkEntries (s : Schema) (home : Home) (entries : Entries) (st : Store) :
    Visit Entries (List Violation) :=
  ((walkRules s.rules s home entries st).map (s.undeclared entries ++ ·)).tally
    fun violations => ⟨s.rules.length, violations.length⟩

theorem Schema.walk_eq (s : Schema) : s.walk = Walk.ofEntries s.walkEntries := by
  obtain ⟨rules, flex⟩ := s
  rfl

theorem Schema.walkEntries_result (s : Schema) (home : Home) (entries : Entries) (st : Store) :
    (s.walkEntries home entries st).result =
      (walkRules s.rules s home entries st).result.map (s.undeclared entries ++ ·) :=
  (Visit.tally_same _ _).1

theorem Schema.walkEntries_left (s : Schema) (home : Home) (entries : Entries) (st : Store) :
    (s.walkEntries home entries st).left = (walkRules s.rules s home entries st).left :=
  (Visit.tally_same _ _).2.1

theorem Schema.walkEntries_store (s : Schema) (home : Home) (entries : Entries) (st : Store) :
    (s.walkEntries home entries st).store = (walkRules s.rules s home entries st).store :=
  (Visit.tally_same _ _).2.2

/-- A value in hand is left as a mapping exactly if it is one. -/
theorem Schema.walk_left_isMapping (s : Schema) {v : Value} (own : ∀ cell, v ≠ .shared cell)
    (st : Store) : (s.walk v st).left.isMapping = v.isMapping := by
  rw [walk_eq]
  cases v with
  | shared cell => exact (own cell rfl).elim
  | _ => rfl

end DataContract
