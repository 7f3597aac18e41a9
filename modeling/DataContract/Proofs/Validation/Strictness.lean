/-
# What strictness adds

A declaration can be compiled to a strict schema and to one that tolerates keys which are not
declared. Both have the same rules, and the schemas below them are strict in either case. So a
strict run reports the undeclared keys of a mapping in their order, and after them just what
the tolerant run reports; it leaves the same data, and stops where that stops. Data that are a
tree and valid for both have the same bodies. A mapping that is reached from inside itself may get
keys from a schema below, which the tolerant schema does not take into its body.

Custom validators are told the schema, so a rule with one may tell the two apart.
-/

import DataContract.Proofs.Schema.Compiled
import DataContract.Proofs.Validation.Judgement
import DataContract.Proofs.Validation.Projection
import DataContract.Proofs.Validation.Safety

set_option autoImplicit false

namespace DataContract

/-- One visit finds what another does after some violations, and leaves the same. -/
structure Visit.Adds {σ : Type} (more : List Violation) (w other : Visit σ (List Violation)) :
    Prop where
  result : w.result = other.result.map (more ++ ·)
  left : w.left = other.left
  store : w.store = other.store

namespace Schema

/-- The violations for the keys that a schema does not declare, in the order of the keys. -/
def strangers (s : Schema) (entries : Entries) : List Violation :=
  (entries.keys.filter fun key => !s.declares key).map fun key => ⟨key, .text (undeclaredText key)⟩

theorem strangers_eq_nil_iff (s : Schema) (entries : Entries) :
    s.strangers entries = [] ↔ ∀ key ∈ entries.keys, s.declares key = true := by
  simp [strangers, List.filter_eq_nil_iff]

end Schema

section

variable [UserCode]

/-- Without custom validators it makes no difference to rules which schema they stand in. -/
theorem walkRules_of_any_schema {rules : List Rule} (custom : ∀ r ∈ rules, r.custom = none)
    (s t : Schema) (home : Home) (entries : Entries) (st : Store) :
    walkRules rules s home entries st = walkRules rules t home entries st := by
  induction rules generalizing entries st with
  | nil => rfl
  | cons r rest ih =>
      rw [List.forall_mem_cons] at custom
      have first : r.walk s home entries st = r.walk t home entries st := by
        simp only [Rule.walk_eq, Rule.judgeCustom, custom.1]
      simp only [walkRules, first, ih custom.2]

/-- Some data and the store are such that a run reports on them and finds nothing. -/
def Schema.Accepts (s : Schema) (v : Value) (st : Store) : Prop :=
  ∃ report, (s.validate v st).result = .ok report ∧ report.valid = true

namespace Schema

theorem accepts_iff (s : Schema) (v : Value) (st : Store) :
    s.Accepts v st ↔ (s.walk v st).result = .ok [] := by
  rw [Accepts, result_validate]
  cases (s.walk v st).result <;> simp [Except.map, Report.valid]

section Modes

variable {rules : List Rule} (custom : ∀ r ∈ rules, r.custom = none)

include custom

/-- On the entries of a mapping the strict run finds the undeclared keys first. -/
theorem walkEntries_adds (home : Home) (entries : Entries) (st : Store) :
    Visit.Adds (strangers ⟨rules, false⟩ entries) (walkEntries ⟨rules, false⟩ home entries st)
      (walkEntries ⟨rules, true⟩ home entries st) := by
  have same := walkRules_of_any_schema custom ⟨rules, false⟩ ⟨rules, true⟩ home entries st
  refine ⟨?_, ?_, ?_⟩
  · rw [walkEntries_result, walkEntries_result, same]
    cases (walkRules rules ⟨rules, true⟩ home entries st).result <;> rfl
  · rw [walkEntries_left, walkEntries_left, same]
  · rw [walkEntries_store, walkEntries_store, same]

/-- On a mapping the strict run finds the undeclared keys first, and on other data it finds
nothing further. -/
theorem walk_adds (v : Value) (st : Store) :
    Visit.Adds ((st.head v).entries?.elim [] (strangers ⟨rules, false⟩))
      (Schema.walk ⟨rules, false⟩ v st) (Schema.walk ⟨rules, true⟩ v st) := by
  rw [walk_eq, walk_eq, Walk.ofEntries, Walk.ofEntries]
  cases found : v.home? st with
  | none =>
      rw [(v.home?_eq_none_iff st).mp found]
      exact ⟨rfl, rfl, rfl⟩
  | some own =>
      obtain ⟨home, entries⟩ := own
      obtain ⟨-, -, mapping⟩ := Value.home?_spec found
      have adds := walkEntries_adds custom home entries st
      rw [mapping]
      exact ⟨adds.result, congrArg home.value adds.left, adds.store⟩

/-- On a mapping the strict run reports the undeclared keys and what the tolerant run reports,
about the same data. -/
theorem validate_adds {v : Value} {st : Store} {entries : Entries}
    (mapping : (st.head v).entries? = some entries) :
    (validate ⟨rules, false⟩ v st).result =
      (validate ⟨rules, true⟩ v st).result.map fun report =>
        ⟨strangers ⟨rules, false⟩ entries ++ report.violations, report.data⟩ := by
  have adds := walk_adds custom v st
  rw [mapping, Option.elim_some] at adds
  rw [result_validate, result_validate, adds.result, adds.left]
  cases (walk ⟨rules, true⟩ v st).result <;> rfl

/-- The strict schema accepts what the tolerant one accepts and what has only declared keys. -/
theorem accepts_strict_iff {v : Value} {st : Store} {entries : Entries}
    (mapping : (st.head v).entries? = some entries) :
    Accepts ⟨rules, false⟩ v st ↔
      Accepts ⟨rules, true⟩ v st ∧ ∀ key ∈ entries.keys, declares ⟨rules, false⟩ key = true := by
  have adds := (walk_adds custom v st).result
  rw [mapping, Option.elim_some] at adds
  rw [accepts_iff, accepts_iff, adds, ← strangers_eq_nil_iff]
  cases (walk ⟨rules, true⟩ v st).result with
  | error fault => simp [Except.map]
  | ok found => simp [Except.map, and_comm]

end Modes

/-- Data that are no mapping give a single violation. -/
theorem validate_of_no_mapping (s : Schema) {v : Value} {st : Store}
    (other : (st.head v).entries? = none) :
    (s.validate v st).result = .ok ⟨[.notARecord], v⟩ := by
  rw [result_validate, walk_eq, Walk.ofEntries, (v.home?_eq_none_iff st).mpr other]
  rfl

variable {s : Schema}

/-- What a run leaves of a mapping in hand differs from it only under the names of the schema. -/
theorem walk_onlyUnder (known : ∀ r ∈ s.rules, r.name.identity?.isSome = true)
    (custom : s.WithoutCustom) {v : Value} (own : ∀ cell, v ≠ .shared cell) {st : Store}
    {entries after : Entries} (before : v.entries? = some entries)
    (left : (s.walk v st).left.entries? = some after) :
    Entries.OnlyUnder (s.rules.map (·.name)) entries after := by
  have only (home : Home) (owned : home.isOwned = true) (entries : Entries) :
      Entries.OnlyUnder (s.rules.map (·.name)) entries (s.walkEntries home entries st).left := by
    rw [walkEntries_left]
    exact walkRules_onlyUnder known custom s owned entries st
  rw [walk_eq] at left
  cases v with
  | object mapping =>
      cases before
      cases left
      exact only .object rfl entries
  | frozen mapping =>
      cases before
      cases left
      exact only .frozen rfl entries
  | schema id t =>
      cases before
      cases left
      exact .refl _ _
  | shared cell => exact (own cell rfl).elim
  | _ => cases before

/-- The keys that a run leaves undeclared are those that were so before. -/
theorem walk_declared (known : ∀ r ∈ s.rules, r.name.identity?.isSome = true)
    (custom : s.WithoutCustom) {v : Value} (own : ∀ cell, v ≠ .shared cell) {st : Store}
    {entries after : Entries} (before : v.entries? = some entries)
    (left : (s.walk v st).left.entries? = some after)
    (declared : ∀ key ∈ entries.keys, s.declares key = true) :
    ∀ key ∈ after.keys, s.declares key = true := by
  have only := walk_onlyUnder known custom own before left
  intro key mem
  refine List.any_eq_true.mpr ((declared_congr known only).mpr (fun key mem => ?_) key mem)
  exact List.any_eq_true.mp (declared key mem)

end Schema

/-- A declaration that is compiled strictly can be compiled tolerantly, to a schema that leaves
the same data and the same store. On a mapping the strict schema reports its undeclared keys in
their order and after them what the tolerant one reports, or fails as that does. So it accepts
what the tolerant one accepts and what holds no undeclared key, and then both have the same
bodies if the data are a tree. Data that are no mapping give the same single violation. -/
theorem Declaration.strict_adds_undeclared {declaration : Value} {own : Entries}
    (declared : declared? declaration = some own) (apart : own.KeysApart) {s : Schema}
    (compiled : compile declaration true = .ok s) (custom : s.WithoutCustom) :
    ∃ f, compile declaration false = .ok f ∧ ∀ v st,
      (s.validate v st).left = (f.validate v st).left ∧
      (s.validate v st).store = (f.validate v st).store ∧
      (∀ entries, (st.head v).entries? = some entries →
        (s.validate v st).result = (f.validate v st).result.map (fun report =>
          ⟨s.strangers entries ++ report.violations, report.data⟩) ∧
        (s.Accepts v st ↔ f.Accepts v st ∧ ∀ key ∈ entries.keys, s.declares key = true) ∧
        (v.unshared = true → s.Accepts v st → ∀ after,
          (s.validate v st).left.entries? = some after →
            ∀ options, s.project options after = f.project options after)) ∧
      ((st.head v).entries? = none →
        (s.validate v st).result = .ok ⟨[.notARecord], v⟩ ∧
          (f.validate v st).result = .ok ⟨[.notARecord], v⟩) := by
  rw [compile_of_declared true declared] at compiled
  obtain ⟨rules, own, rfl⟩ := map_eq_ok.mp compiled
  have known := names_known own apart.known
  refine ⟨⟨rules, true⟩, by rw [compile_of_declared false declared, own]; rfl, fun v st => ?_⟩
  have adds := Schema.walk_adds custom v st
  refine ⟨adds.left, adds.store, fun entries mapping => ⟨?_, ?_, ?_⟩, fun other => ⟨?_, ?_⟩⟩
  · exact Schema.validate_adds custom mapping
  · exact Schema.accepts_strict_iff custom mapping
  · intro tree accepted after left options
    have only := ((Schema.accepts_strict_iff custom mapping).mp accepted).2
    rw [st.head_of_unshared tree] at mapping
    have declaredAfter := Schema.walk_declared known custom (Value.ne_shared tree) mapping left only
    have strict := Schema.project_of_declared declaredAfter options
    have tolerant := Schema.project_of_declared (s := ⟨rules, true⟩) declaredAfter options
    exact strict.trans tolerant.symm
  · exact Schema.validate_of_no_mapping _ other
  · exact Schema.validate_of_no_mapping _ other

end

/-- An article has a title, and a language that is filled in. -/
def articleDeclaration : Entries :=
  [(.text "title", .callable (.token .text)),
    (.text "language", .object
      [(.text "type", .callable (.token .text)), (.text "default", .text "en")])]

open WithoutUserCode in
/-- Only the strict schema refuses a key that is not declared; it fills in the language too. -/
theorem strict_adds_undeclared_article :
    articleDeclaration.KeysApart ∧ ∃ s f,
      Declaration.compile (.object articleDeclaration) true = .ok s ∧ s.WithoutCustom ∧
      Declaration.compile (.object articleDeclaration) false = .ok f ∧
      let article : Entries := [(.text "draft", .bool true), (.text "title", .text "On keys")]
      f.Accepts (.object article) Store.empty ∧ ¬ s.Accepts (.object article) Store.empty ∧
        (s.validate (.object article) Store.empty).left =
          .object (article ++ [(.text "language", .text "en")]) := by
  have declared :
      Declaration.declared? (.object articleDeclaration) = some articleDeclaration := rfl
  have apart : articleDeclaration.KeysApart := by
    constructor <;> simp [articleDeclaration, Value.identity?]
  obtain ⟨s, compiled⟩ :
      ∃ s, Declaration.compile (.object articleDeclaration) true = .ok s := ⟨_, rfl⟩
  have custom : s.WithoutCustom := by
    cases compiled
    exact List.forall_mem_cons.mpr ⟨rfl, List.forall_mem_singleton.mpr rfl⟩
  obtain ⟨f, tolerant, agree⟩ := Declaration.strict_adds_undeclared declared apart compiled custom
  refine ⟨apart, s, f, compiled, custom, tolerant, ?_, fun accepted => ?_, ?_⟩
  · cases tolerant
    exact ⟨_, rfl, rfl⟩
  · have only := (((agree _ _).2.2.1 _ rfl).2.1.mp accepted).2 (.text "draft") List.mem_cons_self
    cases compiled
    cases only
  · rw [(agree _ _).1]
    cases tolerant
    rfl

end DataContract
