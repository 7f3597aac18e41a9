/-
# Runs that only read

Without defaults there is nothing to write. A run then leaves the data and the store as
they are, also where several parts of the data are one and the same, and its answer says
whether the data conform as they stand.
-/

import DataContract.Proofs.Validation.Judgement

set_option autoImplicit false

namespace DataContract

/-- A rule without a custom validator and without a default. -/
structure Rule.Passive (r : Rule) : Prop where
  custom : r.custom = none
  default : r.default = none

/-- A schema of passive rules. -/
def Schema.Passive (s : Schema) : Prop := ∀ r ∈ s.rules, r.Passive

/-- A schema without defaults. -/
def Schema.WithoutDefaults (s : Schema) : Prop := ∀ r ∈ s.rules, r.default = none

/-- A part of a run leaves everything as it is, and gives the answer that lets data pass
exactly if a condition holds. -/
structure Visit.Reads {σ α : Type} (w : Visit σ α) (v : σ) (st : Store) (pass : α)
    (holds : Prop) : Prop where
  left : w.left = v
  store : w.store = st
  passes_iff : w.result = .ok pass ↔ holds

namespace Visit.Reads

variable {σ τ α β : Type} {w : Visit σ α} {v : σ} {st : Store} {pass : α} {holds : Prop}

theorem check (reads : w.Reads v st pass holds) {next : α → Except Fault β} {again : β}
    (only : ∀ a, next a = .ok again ↔ a = pass) : (w.check next).Reads v st again holds where
  left := reads.left
  store := reads.store
  passes_iff := (w.check_passes_iff only).trans reads.passes_iff

theorem map (reads : w.Reads v st pass holds) {f : α → β} {again : β}
    (only : ∀ a, f a = again ↔ a = pass) : (w.map f).Reads v st again holds where
  left := reads.left
  store := reads.store
  passes_iff := (w.map_passes_iff only).trans reads.passes_iff

theorem embed (reads : w.Reads v st pass holds) {f : σ → τ} {x : τ} (same : f v = x) :
    (w.embed f).Reads x st pass holds where
  left := (congrArg f reads.left).trans same
  store := reads.store
  passes_iff := reads.passes_iff

/-- Two parts that only read do so one after the other. -/
theorem append {first : Visit σ (List β)} {next : σ → Store → Visit σ (List β)} {holds' : Prop}
    (head : first.Reads v st [] holds) (further : (next v st).Reads v st [] holds') :
    (first.andThen fun found x st => (next x st).map (found ++ ·)).Reads v st []
      (holds ∧ holds') := by
  rw [Visit.andThen]
  cases outcome : first.result with
  | error fault =>
      have fails : ¬ holds := by
        rw [← head.passes_iff, outcome]
        simp
      constructor
      · exact head.left
      · exact head.store
      · simp [fails]
  | ok found =>
      have passed : found = [] ↔ holds := by
        rw [← head.passes_iff, outcome]
        simp
      dsimp only
      rw [head.left, head.store]
      constructor
      · exact further.left
      · exact further.store
      · exact ((next v st).map_append_eq_nil_iff found).trans (and_congr passed further.passes_iff)

end Visit.Reads

/-- Putting back what a cell holds changes nothing, also where there is no such cell. -/
theorem Store.set_head (st : Store) (cell : Nat) : st.set cell (st.head (.shared cell)) = st := by
  rw [set, head, get?]
  by_cases there : cell < st.cells.length
  · rw [List.getElem?_eq_getElem there, Option.getD_some, List.set_getElem_self]
  · rw [List.set_eq_of_length_le (Nat.le_of_not_lt there)]

/-- A list in which an item is put back to where it stands is what it was. -/
theorem Store.putItem_self {st : Store} {cell position : Nat} {v : Value}
    (there : (st.items (.shared cell))[position]? = some v) :
    st.putItem cell position v v = st := by
  rw [putItem]
  split
  · rw [items] at there
    have same : (st.head (.shared cell)).withItem position v = st.head (.shared cell) := by
      cases content : st.head (.shared cell) with
      | list items | tuple items =>
          rw [content] at there
          obtain ⟨inside, rfl⟩ := List.getElem?_eq_some_iff.mp there
          exact congrArg _ (List.set_getElem_self inside)
      | _ => rfl
    rw [same, st.set_head]
  · rfl

namespace Home

variable {home : Home} {entries : Entries} {st : Store}

/-- Entries that are written back as they stand change nothing. -/
theorem write_current (current : home.look entries st = entries) :
    home.write entries st = (entries, st) := by
  cases home with
  | cell c =>
      rw [look] at current
      have same : (st.head (.shared c)).withEntries entries = st.head (.shared c) := by
        rw [← current]
        cases st.head (.shared c) <;> rfl
      rw [write, same, st.set_head]
  | _ => rfl

theorem putBack_current (current : home.look entries st = entries) {key v : Value}
    (there : entries.get? key = some v) (inPlace : Bool) :
    home.putBack key v inPlace entries v st = (entries, st) := by
  rw [putBack]
  split
  · rw [current, Entries.put_get?_self there, write_current current]
  · rfl

end Home

/-- If every item is only read, items asked in order are. -/
theorem Walk.allItems_reads {walk : Walk Bool} {st : Store} {holds : Value → Prop}
    {items : List Value} (each : ∀ x ∈ items, (walk x st).Reads x st true (holds x)) :
    (Walk.allItems walk items st).Reads items st true (∀ x ∈ items, holds x) := by
  induction items with
  | nil => exact ⟨rfl, rfl, by simp [allItems, Visit.done]⟩
  | cons v rest ih =>
      have first := each v List.mem_cons_self
      have others := ih fun x mem => each x (List.mem_cons_of_mem v mem)
      by_cases passed : (walk v st).result = .ok true
      · have holdsFirst := first.passes_iff.mp passed
        rw [allItems, passed, first.left, first.store]
        constructor
        · exact congrArg (v :: ·) others.left
        · exact others.store
        · simpa [holdsFirst] using others.passes_iff
      · have fails : ¬ holds v := passed ∘ first.passes_iff.mpr
        rw [allItems_of_stops passed, first.left, first.store]
        exact ⟨rfl, rfl, by simp [passed, fails]⟩

/-- If every item is only read, the items in a cell are, from a position on. The room has to
reach to the end of them. -/
theorem Walk.allInCell_reads {walk : Walk Bool} {st : Store} {holds : Value → Prop}
    (each : ∀ x, (walk x st).Reads x st true (holds x)) (cell room position : Nat)
    (enough : (st.items (.shared cell)).length ≤ position + room) :
    (Walk.allInCell walk cell room position st).Reads () st true
      (∀ x ∈ (st.items (.shared cell)).drop position, holds x) := by
  induction room generalizing position with
  | zero =>
      rw [List.drop_eq_nil_of_le (Nat.add_zero position ▸ enough)]
      exact ⟨rfl, rfl, by simp [allInCell, Visit.done]⟩
  | succ room ih =>
      rw [allInCell]
      split
      next beyond =>
        rw [List.drop_eq_nil_of_le (List.getElem?_eq_none_iff.mp beyond)]
        exact ⟨rfl, rfl, by simp [Visit.done]⟩
      next v there =>
        have first := each v
        have same : (walk v st).store.putItem cell position v (walk v st).left = st := by
          rw [first.left, first.store, Store.putItem_self there]
        have others := ih (position + 1) (by omega)
        have split : (st.items (.shared cell)).drop position =
            v :: (st.items (.shared cell)).drop (position + 1) := by
          obtain ⟨inside, rfl⟩ := List.getElem?_eq_some_iff.mp there
          exact List.drop_eq_getElem_cons inside
        rw [split, List.forall_mem_cons, Visit.settle, Visit.andThen]
        dsimp only
        rw [same]
        cases outcome : (walk v st).result with
        | error fault =>
            have fails : ¬ holds v := fun holds => by
              simpa [outcome] using first.passes_iff.mpr holds
            exact ⟨rfl, rfl, by simp [fails]⟩
        | ok fits =>
            have fit : fits = true ↔ holds v := by
              rw [← first.passes_iff, outcome, Except.ok.injEq]
            cases fits with
            | false =>
                have fails : ¬ holds v := fun holds => Bool.noConfusion (fit.mpr holds)
                exact ⟨rfl, rfl, by simp [Visit.done, fails]⟩
            | true =>
                refine ⟨rfl, others.store, ?_⟩
                simpa [fit.mp rfl] using others.passes_iff

/-- If the entries of mappings are only read as they stand, mappings are. -/
theorem Walk.ofEntries_reads {walk : Home → Entries → Store → Visit Entries (List Violation)}
    {st : Store} {holds : Entries → Prop}
    (each : ∀ home entries, home.look entries st = entries →
      (walk home entries st).Reads entries st [] (holds entries)) (v : Value) :
    (Walk.ofEntries walk v st).Reads v st []
      (∃ entries, (st.head v).entries? = some entries ∧ holds entries) := by
  rw [ofEntries]
  split
  next home entries found =>
    obtain ⟨same, current, mapping⟩ := Value.home?_spec found
    simpa [mapping] using (each home entries current).embed same
  next missing =>
    rw [Value.home?_eq_none_iff] at missing
    exact ⟨rfl, rfl, by simp [Visit.done, missing]⟩

/-- If every item is only read, an array is. -/
theorem Walk.ofItems_reads {walk : Walk Bool} {st : Store} {holds : Value → Prop}
    (each : ∀ x, (walk x st).Reads x st true (holds x)) (v : Value) :
    (Walk.ofItems walk v st).Reads v st true
      (∃ items, (st.head v).items? = some items ∧ ∀ x ∈ items, holds x) := by
  have together (items : List Value) := Walk.allItems_reads fun x (_ : x ∈ items) => each x
  cases v with
  | list items | tuple items =>
      rw [ofItems]
      simpa [Store.head, Value.items?] using (together items).embed rfl
  | shared cell =>
      obtain ⟨room, enough, asked⟩ := ofItems_room walk cell st
      have inOrder := allInCell_reads each cell room 0 (by omega)
      rw [asked, Value.isArray]
      cases array : (st.head (.shared cell)).items? with
      | none => exact ⟨rfl, rfl, by simp [Visit.done]⟩
      | some items =>
          have own : st.items (.shared cell) = items := by
            rw [Store.items, array, Option.getD_some]
          rw [own, List.drop_zero] at inOrder
          simpa using inOrder.embed rfl
  | _ => exact ⟨rfl, rfl, by simp [ofItems, Visit.done, Store.head, Value.items?]⟩

/-! ## Rules and schemas -/

variable [UserCode]

theorem Rule.defaultValue_of_passive {r : Rule} (passive : r.Passive) (st : Store) :
    r.defaultValue st = (.ok none, st) := by
  rw [defaultValue, passive.default]

/-- If the check of a rule's type only reads, applying the rule does. -/
theorem Rule.walk_reads_of_check {r : Rule} (passive : r.Passive) {st : Store}
    (checked : ∀ v, (r.type.check r r.name v st).Reads v st [] (r.type.Conforms st r v))
    (s : Schema) {home : Home} {entries : Entries} (current : home.look entries st = entries) :
    (r.walk s home entries st).Reads entries st [] (r.Conforms st entries) := by
  have begun : r.fill home entries st = Visit.done () entries st := by
    simp [fill, defaultValue_of_passive passive, current]
  rw [Rule.walk_eq, begun, Visit.andThen_done]
  cases found : r.valueIn entries with
  | none =>
      refine ⟨rfl, rfl, ?_⟩
      rw [Rule.conforms_iff, found]
      exact r.missing_passes_iff st (missingText r.name)
  | some v =>
      obtain ⟨there, -⟩ := (Rule.valueIn_eq_some_iff r entries v).mp found
      have back : (r.type.check r r.name v st).settle (home.putBack r.name v true entries) =
          (r.type.check r r.name v st).embed fun _ => entries := by
        rw [Visit.settle, (checked v).left, (checked v).store,
          Home.putBack_current current there]
        exact congrArg (Visit.mk _ entries · _) (checked v).store.symm
      rw [Rule.conforms_of_valueIn found]
      simp only [judgeCustom, passive.custom, Visit.andThen_done]
      rw [Visit.map_nil_append, back]
      exact ((checked v).embed rfl).check fun messages => mapM_eq_nil_iff _ messages

/-- If each of some rules only reads, they do so in order. -/
theorem walkRules_reads_of_each {rules : List Rule} {s : Schema} {home : Home}
    {entries : Entries} {st : Store}
    (each : ∀ r ∈ rules, (r.walk s home entries st).Reads entries st [] (r.Conforms st entries)) :
    (walkRules rules s home entries st).Reads entries st [] (RulesConform st rules entries) := by
  induction rules with
  | nil => exact ⟨rfl, rfl, by simp [walkRules, Visit.done, RulesConform]⟩
  | cons r rest ih =>
      rw [walkRules]
      exact (each r List.mem_cons_self).append (ih fun q mem => each q (List.mem_cons_of_mem r mem))

/-- If the checks of its rules only read, a schema does. -/
theorem Schema.walk_reads_of_each {s : Schema} (passive : s.Passive) {st : Store}
    (each : ∀ r ∈ s.rules, ∀ v,
      (r.type.check r r.name v st).Reads v st [] (r.type.Conforms st r v)) (v : Value) :
    (s.walk v st).Reads v st [] (s.Conforms st v) := by
  have entriesRead (home : Home) (entries : Entries) (current : home.look entries st = entries) :
      (s.walkEntries home entries st).Reads entries st []
        ((s.flex = false → ∀ key ∈ entries.keys, ∃ r ∈ s.rules, r.name.equal key = true) ∧
          RulesConform st s.rules entries) := by
    have inOrder := walkRules_reads_of_each fun r mem =>
      r.walk_reads_of_check (passive r mem) (each r mem) s current
    have both := Visit.map_append_eq_nil_iff (walkRules s.rules s home entries st)
      (s.undeclared entries)
    rw [undeclared_eq_nil_iff, inOrder.passes_iff] at both
    constructor
    · rw [walkEntries_left, inOrder.left]
    · rw [walkEntries_store, inOrder.store]
    · rw [walkEntries_result]
      exact both
  have reads := Walk.ofEntries_reads entriesRead v
  rw [walk_eq]
  obtain ⟨rules, flex⟩ := s
  rwa [Conforms]

/-- A run over data by passive schemas only reads. So does the check of a type, and asking
whether a type takes a value. -/
theorem Schema.reads (st : Store) :
    (∀ s : Schema, s.Throughout Schema.Passive → ∀ v,
      (s.walk v st).Reads v st [] (s.Conforms st v)) ∧
    ∀ t : TypeSpec, t.Throughout Schema.Passive → ∀ v,
      (∀ r key, (t.check r key v st).Reads v st [] (t.Conforms st r v)) ∧
      (t.takes v st).Reads v st true (t.AdmitsItem st v) := by
  refine Schema.induction ⟨?schema, ?scalar, ?nested, ?untyped, ?array⟩
  case schema =>
    intro s below passive v
    rw [Schema.throughout_iff] at passive
    exact Schema.walk_reads_of_each passive.1
      (fun r mem v => (below r mem (passive.2 r mem) v).1 r r.name) v
  case scalar =>
    intro kind _ v
    refine ⟨fun r key => ⟨rfl, rfl, ?_⟩, ⟨rfl, rfl, Iff.rfl⟩⟩
    rw [TypeSpec.check, TypeSpec.Conforms, ← Rule.scalarFailures_eq_nil_iff r key kind]
    exact map_text_eq_nil_iff _
  case nested =>
    intro s below passive v
    have reads := below passive v
    refine ⟨fun r key => ?_, reads.map fun violations => List.isEmpty_iff⟩
    rw [TypeSpec.check, TypeSpec.Conforms]
    cases mapping : (st.head v).isMapping with
    | false =>
        have fails : ¬ s.Conforms st v := by
          intro conforms
          obtain ⟨rules, flex⟩ := s
          rw [Schema.Conforms] at conforms
          obtain ⟨entries, own, -⟩ := conforms
          simp [Value.isMapping, own] at mapping
        exact ⟨rfl, rfl, by simp [Visit.done, fails]⟩
    | true => exact reads.check (fold_eq_nil_iff key)
  case untyped =>
    intro _ v
    refine ⟨fun r key => ?_, ⟨rfl, rfl, by simp [TypeSpec.takes, Visit.done, TypeSpec.AdmitsItem]⟩⟩
    rw [TypeSpec.check, TypeSpec.Conforms]
    cases array : (st.head v).items? with
    | none => exact ⟨rfl, rfl, by simp [Visit.done]⟩
    | some items => exact ⟨rfl, rfl, by simp [Visit.done, Rule.lengthFailures_eq_nil_iff]⟩
  case array =>
    intro item below passive v
    have read := Walk.ofItems_reads (fun x => (below passive x).2) v
    refine ⟨fun r key => ?_, ?_⟩
    · rw [TypeSpec.check, TypeSpec.Conforms]
      cases array : (st.head v).items? with
      | none => exact ⟨rfl, rfl, by simp [Visit.done]⟩
      | some items =>
          have passes := r.array_passes_iff key items.length (.text (itemText key item))
            (Walk.ofItems item.takes v st)
          refine ⟨read.left, read.store, passes.trans ?_⟩
          rw [read.passes_iff, array]
          simp
    · rw [TypeSpec.takes, TypeSpec.AdmitsItem]
      exact read

/-- A run over data by passive schemas only reads. -/
theorem Schema.walk_reads (s : Schema) (passive : s.Throughout Schema.Passive) (v : Value)
    (st : Store) : (s.walk v st).Reads v st [] (s.Conforms st v) :=
  (Schema.reads st).1 s passive v

/-! ## Nothing to write -/

omit [UserCode] in
theorem fillItems_eq_self {fill : Value → Store → Value × Store} {st : Store}
    (each : ∀ v, fill v st = (v, st)) (items : List Value) :
    fillItems fill items st = (items, st) := by
  induction items with
  | nil => rfl
  | cons v rest ih => simp [fillItems, each, ih]

/-- Writing what a rule has to write changes nothing if its type changes nothing. -/
theorem Rule.fillAll_eq_self {r : Rule} (passive : r.Passive) {st : Store}
    (each : ∀ v, r.type.fillAll v st = (v, st)) (writable : Bool) (entries : Entries) :
    r.fillAll writable entries st = (entries, st) := by
  have begun : r.prepare writable entries st = (entries, st) := by
    simp [prepare, defaultValue_of_passive passive]
  rw [fillAll_eq, begun]
  dsimp only
  cases found : r.valueIn entries with
  | none => rfl
  | some v =>
      obtain ⟨there, -⟩ := (valueIn_eq_some_iff r entries v).mp found
      dsimp only
      rw [each, Entries.put_get?_self there]

/-- Passive schemas, and the types that hold them, have nothing to write. -/
theorem Schema.fillAll_passive (st : Store) :
    (∀ s : Schema, s.Throughout Schema.Passive → ∀ v, s.fillAll v st = (v, st)) ∧
    ∀ t : TypeSpec, t.Throughout Schema.Passive → ∀ v, t.fillAll v st = (v, st) := by
  refine Schema.induction ⟨?schema, ?scalar, ?nested, ?untyped, ?array⟩
  case schema =>
    intro s below passive v
    rw [Schema.throughout_iff] at passive
    have inOrder (rules : List Rule) (inside : ∀ r ∈ rules, r ∈ s.rules) (writable : Bool)
        (entries : Entries) : fillRules rules writable entries st = (entries, st) := by
      induction rules with
      | nil => rfl
      | cons r rest ih =>
          rw [List.forall_mem_cons] at inside
          rw [fillRules, Rule.fillAll_eq_self (passive.1 r inside.1)
            (below r inside.1 (passive.2 r inside.1))]
          exact ih inside.2
    obtain ⟨rules, flex⟩ := s
    have same := inOrder rules fun _ mem => mem
    cases v <;> simp [Schema.fillAll, same]
  case scalar => exact fun _ _ _ => rfl
  case nested => exact fun _ below passive v => below passive v
  case untyped => exact fun _ _ => rfl
  case array =>
    intro item below passive v
    have same := fillItems_eq_self (below passive)
    cases v <;> simp [TypeSpec.fillAll, same]

end DataContract
