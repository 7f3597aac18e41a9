/-
# Validating a body

The body of data that are valid is valid itself. It holds under every declared name what the
run has left there, and keys that the schema would report are neither in the data nor in the
body. So a validator to which the body is given writes nothing into it and gives it back, with
its keys in the same order. Where undeclared keys are dropped, a strict schema accepts it too.
-/

import DataContract.Proofs.Lifecycle.Running
import DataContract.Proofs.Validation.Repetition
import DataContract.Proofs.Validation.Strictness

set_option autoImplicit false

namespace DataContract

/-! ## Bodies of valid data -/

namespace Schema

/-- What a body holds is found in the record. -/
theorem mem_of_mem_project {s : Schema} {options : BodyOptions} {entries : Entries}
    {e : Value × Value} (mem : e ∈ s.project options entries) : ∃ k, (k, e.2) ∈ entries := by
  have ordered (rules : List Rule) {some : Entries} (mem : e ∈ orderEntries rules some) :
      ∃ k, (k, e.2) ∈ some := by
    induction rules generalizing some with
    | nil => exact ⟨e.1, mem⟩
    | cons r rest ih =>
        rw [orderEntries] at mem
        split at mem
        next v found =>
          rcases List.mem_cons.mp mem with rfl | mem
          · exact Entries.mem_of_get? found
          · obtain ⟨k, there⟩ := ih mem
            exact ⟨k, (Entries.erase_sublist some r.name).subset there⟩
        · exact ih mem
  have kept : s.keptEntries options.includeAll entries ⊆ entries := by
    rw [keptEntries]
    split
    · exact List.filter_sublist.subset
    · exact List.Subset.refl _
  obtain ⟨k, there⟩ : ∃ k, (k, e.2) ∈ s.keptEntries options.includeAll entries := by
    rw [project] at mem
    split at mem
    · exact ordered s.rules mem
    · exact ⟨e.1, mem⟩
  exact ⟨k, kept there⟩

/-- The body of a tree is a tree. -/
theorem project_unshared (s : Schema) (options : BodyOptions) {entries : Entries}
    (tree : entriesUnshared entries = true) :
    entriesUnshared (s.project options entries) = true := by
  rw [entriesUnshared_iff] at tree ⊢
  intro e mem
  obtain ⟨k, there⟩ := mem_of_mem_project mem
  exact tree (k, e.2) there

/-- Where undeclared keys are reported or dropped, a body has only declared ones. -/
theorem declares_of_mem_body {s : Schema} (keys : ∀ r ∈ s.rules, r.name.IsKey)
    {options : BodyOptions} (only : s.flex = false ∨ options.includeAll = false) {entries : Entries}
    (reported : s.undeclared entries = []) {key : Value}
    (mem : key ∈ (s.project options entries).keys) : s.declares key = true := by
  refine declares_of_mem_project keys (fun key => declares_of_kept only ?_) mem
  intro strict key mem
  exact List.any_eq_true.mpr ((undeclared_eq_nil_iff s entries).mp reported strict key mem)

section Valid

variable [UserCode] {s : Schema} {view : Setoid Store}

theorem walk_object (s : Schema) (entries : Entries) (st : Store) :
    s.walk (.object entries) st = (s.walkEntries .object entries st).embed .object := by
  rw [walk_eq]
  rfl

/-- A report on entries in hand that finds nothing shows what the run has left. -/
theorem data_of_valid {entries : Entries} {st : Store} {report : Report}
    (found : (s.validate (.object entries) st).result = .ok report) (none : report.valid = true) :
    (s.walkEntries .object entries st).result = .ok [] ∧
      report.data = .object (s.walkEntries .object entries st).left := by
  have walked : (s.walk (.object entries) st).result = .ok [] :=
    (accepts_iff s _ st).mp ⟨report, found, none⟩
  rw [result_validate, walked] at found
  cases found
  rw [walk_object] at walked
  exact ⟨walked, congrArg Visit.left (walk_object s entries st)⟩

variable (steady : s.Throughout (Schema.Steady view)) {entries : Entries}
  (tree : entriesUnshared entries = true) {st : Store}
  (valid : (s.walkEntries .object entries st).result = .ok [])

include steady

/-- The rules of a steady schema can be applied again to the entries of a tree. -/
theorem rules_repeat (tree : entriesUnshared entries = true) :
    RepeatsUnder view (s.rules.map (·.name)) (walkRules s.rules s .object) entries := by
  have each := ((throughout_iff s).mp steady).2
  exact walkRules_repeats steady
    (fun r mem v own => (Schema.repeats.2 r.type (each r mem) v own).1 r r.name) rfl tree

include valid

/-- Valid data have no key that is reported, and the run adds none. -/
theorem undeclared_of_valid :
    s.undeclared entries = [] ∧ s.undeclared (s.walkEntries .object entries st).left = [] := by
  have own := ((throughout_iff s).mp steady).1
  have before : s.undeclared entries = [] := by
    rw [walkEntries_result] at valid
    obtain ⟨found, -, none⟩ := Declaration.map_eq_ok.mp valid
    exact (List.append_eq_nil_iff.mp none).1
  have only := walkRules_onlyUnder own.names.known (fun r mem => (own.rules r mem).custom) s
    (rfl : Home.object.isOwned = true) entries st
  rw [← walkEntries_left] at only
  exact ⟨before, (undeclared_congr own.names.known only).trans before⟩

include tree

/-- A run over the body of valid data finds nothing and leaves it as it is, in every store that
looks the same. -/
theorem validate_body (options : BodyOptions) {later : Store} (agree : view st later) :
    let body := s.project options (s.walkEntries .object entries st).left
    (s.validate (.object body) later).result = .ok ⟨[], .object body⟩ := by
  intro body
  have keys := ((throughout_iff s).mp steady).1.names.keys
  obtain ⟨before, after⟩ := undeclared_of_valid steady valid
  have declared : s.undeclared body = [] := by
    rw [undeclared_eq_nil_iff]
    intro strict key mem
    exact List.any_eq_true.mp (declares_of_mem_body keys (.inl strict) after mem)
  obtain ⟨_, -, again⟩ := walkEntries_again (rules_repeat steady tree) agree
    (fun r mem => get?_project_name keys mem options _) (declared.trans before.symm)
  rw [result_validate, walk_object, again, valid]
  rfl

end Valid

/-- What a schema accepts is accepted by the strict schema with its rules if all keys are
declared. -/
theorem accepts_strict_of_accepts [UserCode] {s : Schema} (custom : s.WithoutCustom) {v : Value}
    {st : Store} {entries : Entries} (mapping : (st.head v).entries? = some entries)
    (declared : ∀ key ∈ entries.keys, s.declares key = true) (accepted : s.Accepts v st) :
    Accepts ⟨s.rules, false⟩ v st := by
  obtain ⟨rules, flex⟩ := s
  cases flex with
  | false => exact accepted
  | true => exact (accepts_strict_iff custom mapping).mpr ⟨accepted, declared⟩

end Schema

/-- A raw declaration gives the same rules in either mode. -/
theorem Declaration.compile_true_of_compile {declaration : Value} {own : Entries}
    (raw : declared? declaration = some own) {strict : Bool} {s : Schema}
    (compiled : compile declaration strict = .ok s) :
    compile declaration true = .ok ⟨s.rules, false⟩ := by
  rw [compile_of_declared strict raw] at compiled
  obtain ⟨rules, inner, rfl⟩ := map_eq_ok.mp compiled
  rw [compile_of_declared true raw, inner]
  rfl

/-! ## What a run can see of a store -/

namespace Store

/-- What a run can see of a store: the cells, the plugins, the registries and what validators are,
whatever they remember. -/
def visible (st : Store) : Store where
  cells := st.cells
  plugins := st.plugins
  registries := st.registries
  validators := st.validators.map fun v => { v with last := none }

/-- Stores look the same where a run sees the same of them. -/
def lookalike : Setoid Store := Setoid.ker visible

/-- Stores have the same cells. -/
def sameCells : Setoid Store := Setoid.ker cells

theorem cells_of_lookalike {st st' : Store} (same : lookalike st st') : st.cells = st'.cells :=
  (mk.inj same).1

theorem shown_lookalike : Store.Shown lookalike where
  cells same := (cells_of_lookalike same).symm
  plugins same := (mk.inj same).2.2.1.symm
  registries same := (mk.inj same).2.2.2.1.symm
  validators := by
    rintro st st' same id v ⟨last, held⟩
    have validators : st.validators.map (fun v => { v with last := none }) =
        st'.validators.map fun v => { v with last := none } := (mk.inj same).2.2.2.2.1
    have there := congrArg (·[id]?) validators
    rw [List.getElem?_map, List.getElem?_map, held] at there
    obtain ⟨w, found, alike⟩ := Option.map_eq_some_iff.mp there.symm
    obtain ⟨schemaId, schema, registry, _⟩ := w
    cases alike
    exact ⟨_, found⟩
  told _ _ := rfl
  identities _ _ := rfl

/-- That a validator remembers a report does not show. -/
theorem lookalike_remembering (st : Store) (id : Nat) (report : Report) :
    lookalike st (st.remembering id report) := by
  have validators : (st.remembering id report).validators.map (fun v => { v with last := none }) =
      st.validators.map fun v => { v with last := none } := by
    refine List.ext_getElem? fun n => ?_
    rw [List.getElem?_map, List.getElem?_map, remembering, List.getElem?_modify]
    by_cases own : id = n <;> cases st.validators[n]? <;> simp [own]
  rw [lookalike, Setoid.ker_def, visible, visible, validators]
  rfl

end Store

section

variable [UserCode]

/-- A steady producer is steady too where less can be seen. -/
theorem Callable.Steady.mono {view coarser : Setoid Store}
    (less : ∀ {st st'}, view st st' → coarser st st') {f : Callable} (steady : f.Steady view) :
    f.Steady coarser :=
  ⟨steady.alike, steady.fresh, fun st => less (steady.keeps st)⟩

/-- A schema whose rules have no custom validators and at most steady producers. -/
def Schema.SteadyRules (s : Schema) : Prop := ∀ r ∈ s.rules, r.Steady Store.lookalike

/-- As messages are read from cells, a steady rule is steady too where less can be seen, but not
less than the cells. -/
theorem Rule.Steady.mono {view coarser : Setoid Store}
    (less : ∀ {st st'}, view st st' → coarser st st')
    (cells : ∀ {st st'}, coarser st st' → st.cells = st'.cells) {r : Rule}
    (steady : r.Steady view) : r.Steady coarser where
  custom := steady.custom
  default f isProducer := (steady.default f isProducer).mono less
  message _ _ m same _ := Store.head_congr (cells same).symm m

theorem Schema.Steady.sameCells {s : Schema} (steady : s.Steady Store.lookalike) :
    s.Steady Store.sameCells :=
  ⟨steady.names, fun r mem => (steady.rules r mem).mono Store.cells_of_lookalike id⟩

/-! ## Validating for a body -/

/-- A validator was made of a declaration, and the registry that it tells is quiet. -/
def Store.Holds (st : Store) (id : Nat) (declaration : Value) (strict : Bool) : Prop :=
  ∃ v, st.validators[id]? = some v ∧ Declaration.compile declaration strict = .ok v.schema ∧
    st.Quiet lookalike v.registry

/-- A new validator is made of the declaration as it stands, and the cells stay. -/
theorem newValidator_holds {st left : Store} {registry : Nat}
    (quiet : st.Quiet Store.lookalike registry) {declaration : Value} {strict : Bool} {id : Nat}
    (made : (newValidator registry declaration strict).runIn st = (.ok id, left)) :
    left.Holds id (st.plain declaration) strict ∧ left.cells = st.cells := by
  obtain ⟨schemaId, between, same, ran⟩ :=
    newValidator_quiet Store.shown_lookalike quiet declaration strict
  rw [ran] at made
  cases outcome : Declaration.compile (st.plain declaration) strict with
  | error e =>
      rw [outcome] at made
      cases made
  | ok s =>
      rw [outcome] at made
      cases made
      have still := quiet.of_view Store.shown_lookalike same
      have cells := Store.shown_lookalike.cells same
      exact ⟨⟨⟨schemaId, s, registry, none⟩, List.getElem?_concat_length, outcome, still⟩, cells⟩

section Held

variable {st : Store} {id : Nat} {v : Validator} (held : st.HasValidator id v)
  (quiet : st.Quiet Store.lookalike v.registry)
  (steady : v.schema.Throughout (Schema.Steady Store.lookalike)) {entries : Entries}
  (tree : entriesUnshared entries = true)

include steady tree

/-- The run of a steady schema over a tree leaves a store that looks the same. -/
theorem validate_lookalike (st : Store) :
    Store.lookalike st (v.schema.validate (.object entries) st).store :=
  (Schema.repeats.1 v.schema steady (.object entries) tree).store st

include held quiet

theorem still_quiet (between : Store) (same : Store.lookalike st between) :
    (v.schema.validate (.object entries) between).store.HasValidator id v ∧
      (v.schema.validate (.object entries) between).store.Quiet Store.lookalike v.registry := by
  have left := Store.lookalike.trans' same (validate_lookalike steady tree between)
  exact ⟨Store.shown_lookalike.validators left id v held,
    quiet.of_view Store.shown_lookalike left⟩

theorem validate_runIn_of_accepts
    (accepts : ∀ between, Store.lookalike st between →
      v.schema.Accepts (.object entries) between) :
    ∃ left, (validate id (.object entries)).runIn st = (.ok true, left) := by
  obtain ⟨between, left, same, -, -, ran⟩ := validate_quiet Store.shown_lookalike held quiet
    (.object entries) (still_quiet held quiet steady tree)
  obtain ⟨report, found, verdict⟩ := accepts between same
  rw [found] at ran
  dsimp only at ran
  rw [verdict] at ran
  exact ⟨_, ran⟩

/-- A body is given of valid data, and the store looks the same as before. -/
theorem validateBody_returned {registry : Nat} {s : Schema} {options : BodyOptions}
    {body : Entries} {left : Store}
    (returned : (validateBody registry (.object entries) (.validator id s) options).runIn st =
      (.ok body, left)) :
    ∃ between, Store.lookalike st between ∧ Store.lookalike between left ∧
      (v.schema.walkEntries .object entries between).result = .ok [] ∧
      v.schema.project options (v.schema.walkEntries .object entries between).left = body := by
  obtain ⟨between, later, same, sameLater, -, ran⟩ := requireBody_quiet Store.shown_lookalike held
    quiet (.object entries) (still_quiet held quiet steady tree) options
  have chosen : (validatorOf registry (.validator id s)).runIn st = (.ok id, st) := rfl
  rw [validateBody, Action.runIn_bind_of_ok chosen] at returned
  rw [returned] at ran
  refine ⟨between, same, ?_⟩
  cases found : (v.schema.validate (.object entries) between).result with
  | error f =>
      rw [found] at ran
      cases ran
  | ok report =>
      rw [found] at ran
      obtain ⟨answer, after⟩ := ran
      rw [Schema.answer] at answer
      cases verdict : report.valid with
      | false =>
          rw [verdict, if_neg Bool.false_ne_true] at answer
          cases texts : messageTexts report.messages <;> rw [texts] at answer <;> cases answer
      | true =>
          obtain ⟨valid, data⟩ := Schema.data_of_valid found verdict
          rw [verdict, if_pos rfl, data] at answer
          have shown := Store.lookalike.trans' (validate_lookalike steady tree between) sameLater
          have last : left = later.remembering id report := after verdict
          refine ⟨?_, valid, (Except.ok.inj answer).symm⟩
          rw [last]
          exact Store.lookalike.trans' shown (Store.lookalike_remembering later id report)

end Held

/-- If a validator that was made of a declaration gives a body of a tree, it gives the same
body, with its keys in the same order, of that body. If undeclared keys are not asked for, a
validator that was made of the same declaration to be strict accepts that body too. -/
theorem validateBody_again {declaration : Value} {own : Entries}
    (raw : Declaration.declared? declaration = some own) (distinct : declaration.Distinct)
    {strict : Bool} {st left : Store} {id : Nat} (holds : st.Holds id declaration strict)
    (steady : ∀ s, Declaration.compile declaration strict = .ok s →
      s.Throughout Schema.SteadyRules)
    {entries : Entries} (tree : entriesUnshared entries = true) {registry : Nat} {s : Schema}
    {options : BodyOptions} {body : Entries}
    (returned : (validateBody registry (.object entries) (.validator id s) options).runIn st =
      (.ok body, left)) :
    (∃ later, (validateBody registry (.object body) (.validator id s) options).runIn left =
      (.ok body, later)) ∧
    (options.includeAll = false → ∀ u other, u.cells = left.cells → u.Holds other declaration true →
      ∃ later, (validate other (.object body)).runIn u = (.ok true, later)) := by
  obtain ⟨v, held, compiled, quiet⟩ := holds
  have steadyNames : v.schema.Throughout (Schema.Steady Store.lookalike) :=
    Schema.Throughout.and_then (fun _ owned plain => ⟨owned.names, plain⟩) v.schema
      (Declaration.compile_throughout distinct compiled) (steady v.schema compiled)
  have here := ((Schema.throughout_iff v.schema).mp steadyNames).1
  obtain ⟨between, same, sameLeft, valid, rfl⟩ :=
    validateBody_returned (.of_some held) quiet steadyNames tree returned
  have shown := Store.shown_lookalike
  have treeLeft : entriesUnshared (v.schema.project options
      (v.schema.walkEntries .object entries between).left) = true := by
    refine Schema.project_unshared v.schema options ?_
    have unshared := v.schema.walk_left_unshared
      (steadyNames.imp fun _ own => own.selfContained) (v := .object entries) tree between
    rw [Schema.walk_object] at unshared
    exact unshared
  constructor
  -- The second call is made to the same validator, which now remembers a report.
  · have sameStart := Store.lookalike.trans' same sameLeft
    have heldLeft := shown.validators sameStart id v (.of_some held)
    have quietLeft := quiet.of_view shown sameStart
    obtain ⟨again, later, sameAgain, -, -, ran⟩ := requireBody_quiet shown heldLeft quietLeft _
      (still_quiet heldLeft quietLeft steadyNames treeLeft) options
    have accepted := Schema.validate_body steadyNames tree valid options
      (Store.lookalike.trans' sameLeft sameAgain)
    rw [accepted] at ran
    have chosen : (validatorOf registry (.validator id s)).runIn left = (.ok id, left) := rfl
    refine ⟨_, Prod.ext ?_ rfl⟩
    rw [validateBody, Action.runIn_bind_of_ok chosen, ran.1]
    exact congrArg Except.ok (Schema.project_again here.names.keys options _)
  · rintro drops u other cells ⟨sibling, heldThere, compiledThere, quietThere⟩
    have strictSchema : sibling.schema = ⟨v.schema.rules, false⟩ :=
      Except.ok.inj (compiledThere.symm.trans (Declaration.compile_true_of_compile raw compiled))
    have steadyThere : sibling.schema.Throughout (Schema.Steady Store.lookalike) := by
      rw [strictSchema, Schema.throughout_iff]
      exact ⟨⟨⟨here.names.known, here.names.apart⟩, here.rules⟩,
        ((Schema.throughout_iff v.schema).mp steadyNames).2⟩
    refine validate_runIn_of_accepts (.of_some heldThere) quietThere steadyThere treeLeft
      fun later sameThere => ?_
    have agree : Store.sameCells between later :=
      ((Store.cells_of_lookalike sameLeft).trans cells.symm).trans
        (Store.cells_of_lookalike sameThere)
    have accepted := Schema.validate_body (steadyNames.imp fun _ own => own.sameCells) tree valid
      options agree
    have declared : ∀ key ∈ (v.schema.project options
        (v.schema.walkEntries .object entries between).left).keys, v.schema.declares key = true :=
      fun key mem => Schema.declares_of_mem_body here.names.keys (.inr drops)
        (Schema.undeclared_of_valid steadyNames valid).2 mem
    rw [strictSchema]
    exact Schema.accepts_strict_of_accepts (fun r mem => (here.rules r mem).custom) rfl declared
      ⟨_, accepted, rfl⟩

end

open WithoutUserCode in
/-- The body of an article has its language filled in and its draft mark dropped, and it is the
body of itself. -/
theorem validateBody_again_article :
    ∃ st left s, let article : Entries :=
        [(.text "draft", .bool true), (.text "language", .null), (.text "title", .text "On keys")]
      let body : Entries := [(.text "title", .text "On keys"), (.text "language", .text "en")]
      (newValidator defaultRegistry (.object articleDeclaration) false).runIn Store.empty =
          (.ok 0, st) ∧
        (validateBody defaultRegistry (.object article) (.validator 0 s) ⟨false, true⟩).runIn st =
          (.ok body, left) ∧
        ∃ later, (validateBody defaultRegistry (.object body) (.validator 0 s)
          ⟨false, true⟩).runIn left = (.ok body, later) := by
  have quiet : Store.empty.Quiet Store.lookalike defaultRegistry := Store.quiet_of_nobody rfl
  have distinct : (Value.object articleDeclaration).Distinct := by
    refine ⟨⟨?_, ?_⟩, trivial, ⟨⟨?_, ?_⟩, trivial, trivial, trivial⟩, trivial⟩ <;>
      simp [articleDeclaration, Value.identity?]
  have steady (s : Schema)
      (compiled : Declaration.compile (.object articleDeclaration) false = .ok s) :
      s.Throughout Schema.SteadyRules := by
    cases compiled
    refine ⟨fun r mem => ?_, trivial, trivial, trivial⟩
    have simple : r.isSimple = true := List.all_eq_true.mp (by rfl) r mem
    refine (Rule.steady_of_isSimple simple).mono ?_ Store.cells_of_lookalike
    rintro st _ rfl
    exact Store.lookalike.refl' st
  obtain ⟨st, made⟩ : ∃ st, (newValidator defaultRegistry (.object articleDeclaration) false).runIn
      Store.empty = (.ok 0, st) := ⟨_, rfl⟩
  have holds : st.Holds 0 (.object articleDeclaration) false := (newValidator_holds quiet made).1
  obtain ⟨left, returned⟩ : ∃ left, (validateBody defaultRegistry (.object [
      (.text "draft", .bool true), (.text "language", .null), (.text "title", .text "On keys")])
      (.validator 0 ⟨[], false⟩) ⟨false, true⟩).runIn st =
        (.ok [(.text "title", .text "On keys"), (.text "language", .text "en")], left) := by
    cases made
    exact ⟨_, rfl⟩
  have again := validateBody_again rfl distinct holds steady (by rfl) returned
  exact ⟨st, left, _, made, returned, again.1⟩

end DataContract
