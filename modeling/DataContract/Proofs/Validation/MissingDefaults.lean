/-
# Data in which defaults stay missing

A schema with a default below an array leaves some data without it: an array whose first
item does not match is left before its other items are asked. All other properties may be
misfits, so the run finds nothing to write and comes to an end. Together with what a run
completes, this says which schemas have all their defaults written into all data.
-/

import DataContract.Proofs.Validation.Completeness
import DataContract.Proofs.Validation.Safety
import Mathlib.Data.List.Nodup

set_option autoImplicit false

namespace DataContract

/-! ## Data that lack a default -/

/-- Where a schema has a default, at any depth, some data lack it. -/
theorem Schema.exists_incomplete :
    (∀ s : Schema, s.Throughout Schema.NamesApart → ¬ s.Throughout Schema.WithoutDefaults →
      ∃ v, v.unshared = true ∧ ¬ s.Complete v) ∧
    ∀ t : TypeSpec, t.Throughout Schema.NamesApart → ¬ t.Throughout Schema.WithoutDefaults →
      ∃ x, x.unshared = true ∧ ¬ t.CompleteUpTo EveryItem x := by
  refine Schema.induction ⟨?schema, ?scalar, ?nested, ?untyped, ?array⟩
  case schema =>
    intro s below names has
    rw [Schema.throughout_iff] at names has
    by_cases without : s.WithoutDefaults
    · simp only [without, true_and, not_forall] at has
      obtain ⟨r, mem, has⟩ := has
      obtain ⟨x, own, incomplete⟩ := below r mem (names.2 r mem) has
      obtain ⟨i, identity⟩ := Option.isSome_iff_exists.mp (names.1.known r mem)
      have there : Entries.get? [(r.name, x)] r.name = some x :=
        Entries.get?_put_self identity [] x
      refine ⟨.object [(r.name, x)], by simp [Value.unshared, entriesUnshared, own],
        fun complete => ?_⟩
      have inside := (rulesCompleteUpTo_iff _ _ _).mp (complete.rules (.inl ⟨rfl, rfl⟩)) r mem
      exact incomplete (inside.2 x there)
    · simp only [Schema.WithoutDefaults, not_forall] at without
      obtain ⟨r, mem, default⟩ := without
      refine ⟨.object [], rfl, fun complete => ?_⟩
      have inside := (rulesCompleteUpTo_iff _ _ _).mp (complete.rules (.inl ⟨rfl, rfl⟩)) r mem
      obtain ⟨v, there, -⟩ := inside.1 rfl default
      cases there
  case scalar => exact fun _ _ has => absurd trivial has
  case nested => exact fun _ below names has => below names has
  case untyped => exact fun _ has => absurd trivial has
  case array =>
    intro item below names has
    obtain ⟨x, own, incomplete⟩ := below names has
    refine ⟨.list [x], by simp [Value.unshared, allUnshared, own], fun complete => ?_⟩
    exact incomplete (complete [x] rfl).1

/-! ## Runs that leave data as they are -/

/-- A part of a run leaves data as they are, and fails on no date. -/
structure Visit.Stays {σ α : Type} (w : Visit σ α) (v : σ) : Prop where
  left : w.left = v
  undated : Undated w.result

theorem Visit.Stays.check {σ α β : Type} {w : Visit σ α} {v : σ} (stays : w.Stays v)
    {next : α → Except Fault β} (further : ∀ a, Undated (next a)) : (w.check next).Stays v :=
  ⟨stays.left, stays.undated.bind further⟩

theorem Visit.Stays.map {σ α β : Type} {w : Visit σ α} {v : σ} (stays : w.Stays v) (f : α → β) :
    (w.map f).Stays v :=
  ⟨stays.left, stays.undated.map f⟩

theorem Visit.stays_done {σ α : Type} (a : α) (v : σ) (st : Store) : (done a v st).Stays v where
  left := rfl
  undated _ failed := by cases failed

theorem Undated.mapM {α β : Type} {f : α → Except Fault β} (each : ∀ a, Undated (f a))
    (items : List α) : Undated (items.mapM f) := by
  induction items with
  | nil =>
      intro _ failed
      cases failed
  | cons a rest ih =>
      rw [List.mapM_cons]
      exact (each a).bind fun _ => ih.bind fun _ _ failed => by cases failed

theorem Rule.reportAll_undated (r : Rule) (st : Store) (messages : List Message) :
    Undated (r.reportAll st messages) := by
  refine Undated.mapM (fun message => ?_) messages
  cases message with
  | text s => exact r.report_undated st s
  | folded parts =>
      intro _ failed
      cases failed

theorem foldMessages_undated (key : Value) (messages : List Value) :
    Undated (foldMessages key messages) := by
  refine (Undated.mapM (fun m f failed => ?_) messages).map _
  rw [prefixPart.eq_def] at failed
  split at failed <;> cases failed <;> first | (split <;> simp) | simp

theorem TypeSpec.misfit_unshared (t : TypeSpec) : t.misfit.unshared = true := by
  rw [misfit.eq_def]
  split <;> rfl

/-! ## Misfits around one value -/

/-- The value of one rule among misfits for all others. -/
def Rule.amongMisfits (r : Rule) (x : Value) (q : Rule) : Value :=
  if q.name.equal r.name then x else q.type.misfit

section

variable {s : Schema} {r q : Rule} {x : Value}

/-- Two rules of a schema with one name are one rule. -/
theorem Schema.NamesApart.eq_of_equal (names : s.NamesApart) (mem : r ∈ s.rules)
    (other : q ∈ s.rules) (same : q.name.equal r.name = true) : q = r := by
  obtain ⟨i, identity⟩ := Option.isSome_iff_exists.mp (names.known r mem)
  have both := (Value.equal_iff_of_identity?_right identity q.name).mp same
  exact List.inj_on_of_nodup_map names.apart other mem (both.trans identity.symm)

theorem Rule.amongMisfits_self (known : r.name.identity?.isSome = true) (x : Value) :
    r.amongMisfits x r = x := by
  rw [amongMisfits, if_pos (Value.equal_self known)]

theorem Rule.amongMisfits_unshared (own : x.unshared = true) (r q : Rule) :
    (r.amongMisfits x q).unshared = true := by
  rw [amongMisfits]
  split
  · exact own
  · exact q.type.misfit_unshared

end

/-! ## Runs over misfits -/

section

variable [UserCode]

/-- A misfit is no item of its type. -/
theorem TypeSpec.takes_misfit (t : TypeSpec) (st : Store) :
    t.takes t.misfit st = Visit.done false t.misfit st := by
  cases t with
  | scalar kind => cases kind <;> rfl
  | nested s =>
      obtain ⟨rules, flex⟩ := s
      rfl
  | array item => cases item <;> rfl

/-- If the check of a value that is there leaves it, its rule leaves the entries. -/
theorem Rule.walk_stays_of_check {r : Rule} (bare : r.Bare) {entries : Entries} {x : Value}
    (there : entries.get? r.name = some x) (present : x ≠ .null)
    (checked : ∀ st, (r.type.check r r.name x st).Stays x) (s : Schema) (st : Store) :
    (r.walk s .object entries st).Stays entries := by
  have found : r.valueIn entries = some x :=
    (valueIn_eq_some_iff r entries x).mpr ⟨there, present⟩
  obtain ⟨started, begun⟩ := start_of_present found true st
  rw [walk_eq_of_owned Home.isOwned_object bare.custom]
  simp only [Home.writable, started, begun, Visit.andThen, Visit.ofExcept, found]
  constructor
  · change entries.put r.name (r.type.check r r.name x st).left = entries
    rw [(checked st).left, Entries.put_get?_self there]
  · exact (checked st).undated.bind fun messages => r.reportAll_undated _ messages

/-- If each of some rules leaves the entries, they do so in order. -/
theorem walkRules_stays {rules : List Rule} {entries : Entries} {s : Schema}
    (each : ∀ r ∈ rules, ∀ st, (r.walk s .object entries st).Stays entries) (st : Store) :
    (walkRules rules s .object entries st).Stays entries := by
  induction rules generalizing st with
  | nil => exact Visit.stays_done [] entries st
  | cons r rest ih =>
      rw [List.forall_mem_cons] at each
      have head := each.1 st
      have tail := ih each.2
      rw [walkRules]
      constructor
      · rw [Visit.andThen]
        split
        · exact head.left
        · rw [head.left]
          exact (tail _).left
      · apply undated_append head.undated
        rw [head.left]
        exact (tail _).undated

/-- If each of its rules leaves the entries of a mapping, a schema leaves the mapping. -/
theorem Schema.walk_stays_of_each {s : Schema} {entries : Entries}
    (each : ∀ r ∈ s.rules, ∀ st, (r.walk s .object entries st).Stays entries) (st : Store) :
    (s.walk (.object entries) st).Stays (.object entries) := by
  have stays := walkRules_stays each st
  rw [walk_eq]
  constructor
  · dsimp only [Walk.ofEntries, Value.home?, Visit.embed]
    rw [walkEntries_left]
    exact congrArg Value.object stays.left
  · dsimp only [Walk.ofEntries, Value.home?, Visit.embed]
    rw [walkEntries_result]
    exact stays.undated.map _

/-! ## Data that are left without a default -/

section AmongMisfits

variable {s : Schema} {r q : Rule} {x : Value}

/-- If the check of one rule leaves a value, the checks of all rules leave their values. -/
theorem Schema.check_amongMisfits_stays (names : s.NamesApart) (mem : r ∈ s.rules)
    (present : x ≠ .null) (checked : ∀ st, (r.type.check r r.name x st).Stays x)
    (other : q ∈ s.rules) :
    r.amongMisfits x q ≠ .null ∧
      ∀ st, (q.type.check q q.name (r.amongMisfits x q) st).Stays (r.amongMisfits x q) := by
  rw [Rule.amongMisfits]
  split
  next same =>
    rw [names.eq_of_equal mem other same]
    exact ⟨present, checked⟩
  next =>
    refine ⟨q.type.misfit_ne_null, fun st => ?_⟩
    obtain ⟨message, found⟩ := q.type.check_misfit q q.name st
    rw [found]
    exact Visit.stays_done _ _ st

/-- If some value of one rule is left incomplete, data that hold it among misfits are. -/
theorem Schema.exists_left_incomplete_of_rule (tidy : s.Tidy) (mem : r ∈ s.rules)
    (own : x.unshared = true) (present : x ≠ .null)
    (incomplete : ¬ r.type.CompleteUpTo EveryItem x)
    (checked : ∀ st, (r.type.check r r.name x st).Stays x) :
    ∃ entries, entriesUnshared entries = true ∧ ¬ s.Complete (.object entries) ∧
      ∀ st, (s.walk (.object entries) st).Stays (.object entries) := by
  have value (q : Rule) (other : q ∈ s.rules) :
      Entries.get? (s.rules.map fun q => (q.name, r.amongMisfits x q)) q.name =
        some (r.amongMisfits x q) :=
    get?_of_rules tidy.names.known tidy.names.apart (r.amongMisfits x) other
  refine ⟨s.rules.map fun q => (q.name, r.amongMisfits x q), ?_, fun complete => ?_, ?_⟩
  · rw [entriesUnshared_iff]
    intro e inEntries
    obtain ⟨q, -, rfl⟩ := List.mem_map.mp inEntries
    exact Rule.amongMisfits_unshared own r q
  · have there := value r mem
    rw [Rule.amongMisfits_self (tidy.names.known r mem)] at there
    have inside := (rulesCompleteUpTo_iff _ _ _).mp (complete.rules (.inl ⟨rfl, rfl⟩)) r mem
    exact incomplete (inside.2 x there)
  · refine Schema.walk_stays_of_each fun q other => ?_
    obtain ⟨notNull, stays⟩ :=
      Schema.check_amongMisfits_stays tidy.names mem present checked other
    exact Rule.walk_stays_of_check (tidy.bare q other) (value q other) notNull stays s

end AmongMisfits

/-- An array whose first item is a misfit is left before the others are asked. -/
theorem Walk.allItems_misfit (item : TypeSpec) (others : List Value) (st : Store) :
    Walk.allItems item.takes (item.misfit :: others) st =
      Visit.done false (item.misfit :: others) st := by
  rw [allItems, item.takes_misfit]
  rfl

/-- Where a schema has a default below an array, a run leaves some data as they are, which
lack it. So does the check of a type. -/
theorem Schema.exists_left_incomplete :
    (∀ s : Schema, s.Throughout Schema.Tidy → ¬ s.DefaultsOutsideArrays →
      ∃ entries, entriesUnshared entries = true ∧ ¬ s.Complete (.object entries) ∧
        ∀ st, (s.walk (.object entries) st).Stays (.object entries)) ∧
    ∀ t : TypeSpec, t.Throughout Schema.Tidy → ¬ t.DefaultsOutsideArrays →
      ∃ x, x.unshared = true ∧ x ≠ .null ∧ ¬ t.CompleteUpTo EveryItem x ∧
        ∀ q key st, (t.check q key x st).Stays x := by
  refine Schema.induction ⟨?schema, ?scalar, ?nested, ?untyped, ?array⟩
  case schema =>
    intro s below tidy inside
    rw [Schema.throughout_iff] at tidy
    simp only [Schema.defaultsOutsideArrays_iff, not_forall] at inside
    obtain ⟨r, mem, inside⟩ := inside
    obtain ⟨x, own, present, incomplete, checked⟩ := below r mem (tidy.2 r mem) inside
    exact s.exists_left_incomplete_of_rule tidy.1 mem own present incomplete (checked r r.name)
  case scalar => exact fun _ _ inside => absurd trivial inside
  case nested =>
    intro s below tidy inside
    obtain ⟨entries, own, incomplete, stays⟩ := below tidy inside
    refine ⟨.object entries, own, by simp, incomplete, fun q key st => ?_⟩
    refine (stays st).check fun violations => ?_
    split
    · intro _ failed
      cases failed
    · exact (foldMessages_undated key _).map _
  case untyped => exact fun _ inside => absurd trivial inside
  case array =>
    intro item _ tidy inside
    have names := TypeSpec.Throughout.imp (fun _ own => own.names) tidy
    obtain ⟨x, own, incomplete⟩ := Schema.exists_incomplete.2 item names inside
    refine ⟨.list [item.misfit, x], ?_, by simp, fun complete => ?_, fun q key st => ?_⟩
    · simp [Value.unshared, allUnshared, item.misfit_unshared, own]
    · exact incomplete ((complete [item.misfit, x] rfl).2 trivial).1
    · refine Visit.Stays.map ?_ _
      rw [Walk.ofItems, Walk.allItems_misfit]
      exact Visit.stays_done false _ st

/-! ## Compiled schemas -/

theorem Schema.Tidy.selfContained {s : Schema} (tidy : s.Tidy) (literal : s.LiteralDefaults) :
    s.SelfContained where
  names := tidy.names
  rules r mem := ⟨(tidy.bare r mem).custom, (literal r mem).gives _⟩

/-- If the defaults of a compiled schema without custom validators are texts and numbers, a run
that returns leaves data that are a tree complete up to the first misfit of each array, also
where it finds violations. It leaves them complete if they are valid or no default stands below
an array. A schema that is safe and has a default below an array leaves some data incomplete:
safe is one that speaks and has no pattern for byte strings where a text is searched. -/
theorem Declaration.compiled_completeness {declaration : Value} {strict : Bool} {s : Schema}
    (distinct : declaration.Distinct) (compiled : compile declaration strict = .ok s)
    (custom : s.Throughout Schema.WithoutCustom) (literal : s.Throughout Schema.LiteralDefaults) :
    (∀ v st report, v.unshared = true → (s.validate v st).result = .ok report →
      s.CompleteUpToMisfits (s.validate v st).store report.data ∧
        (report.valid = true ∨ s.DefaultsOutsideArrays → s.Complete report.data)) ∧
    (s.speaks false = true → s.Throughout Schema.Searchable → ¬ s.DefaultsOutsideArrays →
      ∃ v, v.unshared = true ∧ ∀ st, ∃ report, (s.validate v st).result = .ok report ∧
        ¬ s.Complete report.data) := by
  have tidy := compile_tidy distinct compiled custom
  have contained : s.Throughout Schema.SelfContained :=
    Schema.Throughout.and_then (fun _ tidy literal => tidy.selfContained literal) s tidy literal
  constructor
  · intro v st report tree returned
    obtain ⟨found, walked, rfl⟩ := Declaration.map_eq_ok.mp returned
    have upTo : s.CompleteUpToMisfits (s.validate v st).store (s.walk v st).left :=
      Schema.completes.1 s contained literal v st found tree walked
    refine ⟨upTo, ?_⟩
    rintro (valid | outside)
    · rw [Report.valid, List.isEmpty_iff] at valid
      have judged : (s.walk v st).Judges [] (s.Conforms (s.validate v st).store)
          (·.unshared = true) (s.fillAll v st) := s.walk_judges contained v st tree
      exact Schema.complete_of_conforms.1 s _ (judged.passes_iff.mp (valid ▸ walked)) upTo
    · exact Schema.complete_of_outsideArrays.1 s outside _ upTo
  · intro speaks searchable inside
    obtain ⟨entries, own, incomplete, stays⟩ := Schema.exists_left_incomplete.1 s tidy inside
    have harmless : s.Throughout Schema.Harmless :=
      Schema.Throughout.and_then
        (fun _ searchable literal r mem => ⟨searchable r mem, fun st f fault isProducer =>
          ((literal r mem).gives (fun _ => True) f isProducer).quiet st fault⟩) s searchable literal
    refine ⟨.object entries, own, fun st => ?_⟩
    have settles := Schema.settles.1 s (tidy.imp fun _ own => own.bare) harmless false speaks
      (.object entries) st
    cases outcome : (s.walk (.object entries) st).result with
    | error f =>
        rw [outcome] at settles
        exact absurd settles ((stays st).undated f outcome)
    | ok found =>
        refine ⟨⟨found, .object entries⟩, ?_, incomplete⟩
        rw [Schema.result_validate, outcome, (stays st).left]
        rfl

end

/-- Items with a text that is required and a number that has a default. -/
def itemsDeclaration : Value :=
  .object [(.text "items", .list [.object
    [(.text "a", .object
        [(.text "type", .callable (.token .text)), (.text "required", .bool true)]),
      (.text "n", .object
        [(.text "type", .callable (.token .integer)), (.text "default", .int 7)])]])]

open WithoutUserCode in
/-- The items have a default, so some data lack it after the run. -/
theorem compiled_completeness_itemsDeclaration :
    itemsDeclaration.Distinct ∧ ∃ s, Declaration.compile itemsDeclaration true = .ok s ∧
      s.Throughout Schema.WithoutCustom ∧ s.Throughout Schema.LiteralDefaults ∧
      s.speaks false = true ∧ s.Throughout Schema.Searchable ∧ ¬ s.DefaultsOutsideArrays ∧
      ∃ v, v.unshared = true ∧ ∀ st, ∃ report, (s.validate v st).result = .ok report ∧
        ¬ s.Complete report.data := by
  have distinct : itemsDeclaration.Distinct := by
    refine ⟨⟨?_, ?_⟩, ⟨⟨⟨?_, ?_⟩, ⟨⟨?_, ?_⟩, trivial, trivial, trivial⟩,
      ⟨⟨?_, ?_⟩, trivial, trivial, trivial⟩, trivial⟩, trivial⟩, trivial⟩ <;>
      simp [Value.identity?]
  have custom (s : Schema) (compiled : Declaration.compile itemsDeclaration true = .ok s) :
      s.Throughout Schema.WithoutCustom := by
    cases compiled
    exact ⟨List.forall_mem_singleton.mpr rfl,
      ⟨List.forall_mem_cons.mpr ⟨rfl, List.forall_mem_singleton.mpr rfl⟩, trivial, trivial,
        trivial⟩,
      trivial⟩
  have literal (s : Schema) (compiled : Declaration.compile itemsDeclaration true = .ok s) :
      s.Throughout Schema.LiteralDefaults := by
    cases compiled
    refine ⟨List.forall_mem_singleton.mpr ?_,
      ⟨List.forall_mem_cons.mpr ⟨?_, List.forall_mem_singleton.mpr ?_⟩, trivial, trivial, trivial⟩,
      trivial⟩
    · exact fun _ isDefault => by cases isDefault
    · exact fun _ isDefault => by cases isDefault
    · intro _ isDefault
      cases isDefault
      exact .inr rfl
  have searchable (s : Schema) (compiled : Declaration.compile itemsDeclaration true = .ok s) :
      s.Throughout Schema.Searchable := by
    cases compiled
    exact ⟨List.forall_mem_singleton.mpr fun _ => rfl,
      ⟨List.forall_mem_cons.mpr ⟨fun _ => rfl, List.forall_mem_singleton.mpr fun _ => rfl⟩, trivial,
        trivial, trivial⟩, trivial⟩
  have inside (s : Schema) (compiled : Declaration.compile itemsDeclaration true = .ok s) :
      ¬ s.DefaultsOutsideArrays := by
    cases compiled
    rintro ⟨⟨without, -⟩, -⟩
    cases List.forall_mem_singleton.mp (List.forall_mem_cons.mp without).2
  exact ⟨distinct, _, rfl, custom _ rfl, literal _ rfl, rfl, searchable _ rfl,
    inside _ rfl, (Declaration.compiled_completeness distinct rfl (custom _ rfl) (literal _ rfl)).2
      rfl (searchable _ rfl) (inside _ rfl)⟩

/-- The schema of the items. -/
def itemSchema : Schema :=
  ⟨[{ Rule.ofType (.text "a") (.scalar .text) with required := true },
    { Rule.ofType (.text "n") (.scalar .number) with default := some (.int 7) }], false⟩

/-- Of two items the first does not match, and the second does. -/
def mixedItems : Value :=
  .object [(.text "items", .list [.object [], .object [(.text "a", .text "x")]])]

open WithoutUserCode in
/-- The first item gets its default and the second does not. -/
theorem mixedItems_left_incomplete :
    ∃ s, Declaration.compile itemsDeclaration true = .ok s ∧
      ∀ st, (s.validate mixedItems st).result.map (·.valid) = .ok false ∧
        (s.validate mixedItems st).left = .object [(.text "items", .list
          [.object [(.text "n", .int 7)], .object [(.text "a", .text "x")]])] ∧
        ¬ s.Complete (s.validate mixedItems st).left := by
  let r := Declaration.requiredRule (.text "items") (.array (some (.nested itemSchema)))
  let left : List Value := [.object [(.text "n", .int 7)], .object [(.text "a", .text "x")]]
  refine ⟨⟨[r], false⟩, rfl, fun st => ?_⟩
  have stops (st : Store) :
      ((TypeSpec.nested itemSchema).takes (.object []) st).result = .ok false :=
    rfl
  have written (st : Store) : ((TypeSpec.nested itemSchema).takes (.object []) st).left =
      .object [(.text "n", .int 7)] := rfl
  have asked (st : Store) := Walk.allItems_of_stops (by rw [stops st]; simp)
    [.object [(.text "a", .text "x")]]
  simp only [stops, written] at asked
  let entries : Entries := [(.text "items", .list [.object [], .object [(.text "a", .text "x")]])]
  have checked (st : Store) : ∃ store tallies,
      r.type.check r r.name (.list [.object [], .object [(.text "a", .text "x")]]) st =
        ⟨.ok [.text (itemText r.name (.nested itemSchema))], .list left, store, tallies⟩ := by
    refine ⟨_, _, (congrArg (Visit.map _ <| Visit.embed Value.list ·) (asked st)).trans rfl⟩
  obtain ⟨store, tallies, found⟩ := checked st
  have present : r.valueIn entries =
      some (.list [.object [], .object [(.text "a", .text "x")]]) := rfl
  obtain ⟨started, begun⟩ := Rule.start_of_present present true st
  have walked : r.walk ⟨[r], false⟩ .object entries st =
      ⟨.ok [⟨r.name, .text (itemText r.name (.nested itemSchema))⟩],
        [(.text "items", .list left)], store, tallies⟩ := by
    rw [Rule.walk_eq_of_owned Home.isOwned_object rfl]
    simp only [Home.writable, started, begun, Visit.andThen, Visit.ofExcept, present, found]
    rfl
  have leaves : ((⟨[r], false⟩ : Schema).validate mixedItems st).left =
      .object [(.text "items", .list left)] := by
    show ((⟨[r], false⟩ : Schema).walk (.object entries) st).left = _
    rw [Schema.walk_eq]
    dsimp only [Walk.ofEntries, Value.home?, Visit.embed]
    rw [Schema.walkEntries_left, walkRules, walked]
    rfl
  refine ⟨?_, leaves, fun complete => ?_⟩
  · rw [Schema.result_validate, Schema.walk_eq]
    dsimp only [mixedItems, Walk.ofEntries, Value.home?, Visit.embed]
    rw [Schema.walkEntries_result, walkRules, walked]
    rfl
  rw [leaves] at complete
  obtain ⟨⟨-, below⟩, -⟩ := complete
  obtain ⟨-, later⟩ := below (.list left) rfl _ rfl
  obtain ⟨-, ⟨number, -⟩, -⟩ := (later trivial).1
  obtain ⟨v, there, -⟩ := number rfl fun isNone => by cases isNone
  cases there

end DataContract
