/-
# The grammar of declarations

Which declarations are well formed is said here without compiling anything: as an
inductive grammar of types, entries and declarations. The compiler accepts exactly
the well-formed declarations, whatever mode is asked for.

The grammar does not say what an accepted declaration compiles to, nor which error
a faulty one gives.
-/

import DataContract.Schema.Declaration
import Mathlib.Tactic.Common

set_option autoImplicit false

namespace DataContract.Declaration

/-- The entries of a mapping that declares something: a compiled schema is a mapping
too, but it stands for itself. -/
def declared? : Value → Option Entries
  | .object entries => some entries
  | .frozen entries => some entries
  | _ => none

/-- The tokens of supported types. -/
def supportedTokens : List TypeToken :=
  [.text, .integer, .float, .boolean, .mapping, .callable, .callableInterface, .date, .moment,
    .list, .tuple]

/-- The keywords that are types. -/
def typeKeywords : List String := ["uuid/v1", "uuid/v4"]

/-- The token of texts, the only type that has patterns and accepted values. -/
def textToken : Value := .callable (.token .text)

/-- A custom validator is left out, or it can be called. -/
def AdmitsCustom (options : Entries) : Prop :=
  ∀ v, options.option? "custom" = some v → v.isCallable = true

/-- What the options beside the type of a property have to be. -/
structure AdmitsOptions (token : Value) (options : Entries) : Prop where
  pattern : ∀ v, options.option? "regex" = some v → token = textToken ∧ ∃ p, v = .pattern p
  choices : ∀ v, options.option? "enum" = some v →
    token = textToken ∧ ∃ items, v = .list items ∨ v = .tuple items ∨ v = .set items
  custom : AdmitsCustom options
  bounds : ∀ (bound : Bound) (v : Value), options.option? bound.label = some v → v.isNumber = true

mutual

/-- The types: tokens, keywords, compiled schemas, arrays of at most one item type,
and mappings that declare a record. -/
inductive IsType : Value → Prop
  | token {t : TypeToken} : t ∈ supportedTokens → IsType (.callable (.token t))
  | keyword {word : String} : word ∈ typeKeywords → IsType (.text word)
  | schema {id : Nat} {s : Schema} : IsType (.schema id s)
  | validator {id : Nat} {s : Schema} : IsType (.validator id s)
  | anyItems {v : Value} : v.items? = some [] → IsType v
  | items {v item : Value} : v.items? = some [item] → IsType item → IsType v
  | record {v : Value} {entries : Entries} :
      declared? v = some entries → (∀ e ∈ entries, IsEntry e.2) → IsType v

/-- The entries of properties: mappings without a type, which declare a record beside
the keys about the property, mappings with a type, and types alone. -/
inductive IsEntry : Value → Prop
  | nested {v : Value} {entries : Entries} :
      declared? v = some entries → entries.get? typeKey = none → AdmitsCustom entries →
      (∀ e ∈ entries, isMetaKey e.1 = false → IsEntry e.2) → IsEntry v
  | rule {v token : Value} {options : Entries} :
      declared? v = some options → options.get? typeKey = some token → IsType token →
      AdmitsOptions token options → IsEntry v
  | bare {v : Value} : declared? v = none → IsType v → IsEntry v

end

/-- The declarations: compiled schemas, what carries one, and mappings from names to
entries. -/
inductive WellFormed : Value → Prop
  | schema {id : Nat} {s : Schema} : WellFormed (.schema id s)
  | validator {id : Nat} {s : Schema} : WellFormed (.validator id s)
  | entries {v : Value} {entries : Entries} :
      declared? v = some entries → (∀ e ∈ entries, IsEntry e.2) → WellFormed v

/-- A chain of checks succeeds exactly when the first one does and the others
succeed after it. -/
theorem bind_ok_iff {ε α β : Type} (x : Except ε α) (f : α → Except ε β) :
    (∃ b, (x >>= f) = .ok b) ↔ ∃ a, x = .ok a ∧ ∃ b, f a = .ok b := by
  cases x with
  | error e => simp [bind, Except.bind]
  | ok a => simp [bind, Except.bind]

theorem bind_eq_ok {ε α β : Type} {x : Except ε α} {f : α → Except ε β} {b : β} :
    (x >>= f) = .ok b ↔ ∃ a, x = .ok a ∧ f a = .ok b := by
  cases x with
  | error e => simp [bind, Except.bind]
  | ok a => simp [bind, Except.bind]

theorem map_eq_ok {ε α β : Type} {x : Except ε α} {f : α → β} {b : β} :
    x.map f = .ok b ↔ ∃ a, x = .ok a ∧ f a = b := by
  cases x with
  | error e => simp [Except.map]
  | ok a => simp [Except.map]

theorem map_ok_iff {ε α β : Type} (x : Except ε α) (f : α → β) :
    (∃ b, x.map f = .ok b) ↔ ∃ a, x = .ok a := by
  cases x with
  | error e => simp [Except.map]
  | ok a => simp [Except.map]

theorem fmap_ok_iff {ε α β : Type} (x : Except ε α) (f : α → β) :
    (∃ b, f <$> x = .ok b) ↔ ∃ a, x = .ok a :=
  map_ok_iff x f

theorem mapError_ok_iff {ε δ α : Type} (x : Except ε α) (f : ε → δ) :
    (∃ a, x.mapError f = .ok a) ↔ ∃ a, x = .ok a := by
  cases x with
  | error e => simp [Except.mapError]
  | ok a => simp [Except.mapError]

/-! ### Options -/

theorem customOf_ok_iff (key : Value) (custom : Option Value) :
    (∃ c, customOf key (custom.getD .null) = .ok c) ↔
      ∀ v, custom = some v → v = .null ∨ v.isCallable = true := by
  cases custom with
  | none => simp [customOf]
  | some v => cases v <;> simp [customOf, Value.isCallable]

/-- A missing option and one that is `null` are told apart by looking, but not by what
they mean. -/
theorem option?_eq_some_iff (entries : Entries) (name : String) (v : Value) :
    entries.option? name = some v ↔ entries.get? (.text name) = some v ∧ v ≠ .null := by
  unfold Entries.option?
  split
  · rename_i found
    simp only [found, Option.some.injEq, reduceCtorEq, false_iff, not_and, not_not]
    exact fun same => same.symm
  · rename_i other
    constructor
    · intro found
      refine ⟨found, ?_⟩
      intro same
      subst same
      exact other found
    · exact And.left

theorem customOf_get_ok_iff (key : Value) (entries : Entries) :
    (∃ c, customOf key ((entries.get? (.text "custom")).getD .null) = .ok c) ↔
      AdmitsCustom entries := by
  rw [customOf_ok_iff]
  simp only [AdmitsCustom, option?_eq_some_iff, and_imp]
  exact forall_congr' fun v => imp_congr_right fun _ => or_iff_not_imp_left

theorem customOf_option_ok_iff (key : Value) (entries : Entries) :
    (∃ c, customOf key ((entries.option? "custom").getD .null) = .ok c) ↔
      AdmitsCustom entries := by
  rw [customOf_ok_iff]
  refine forall_congr' fun v => imp_congr_right fun found => ?_
  have present := ((option?_eq_some_iff entries "custom" v).mp found).2
  simp [present]

theorem boundOf_ok_iff (key : Value) (bound : Bound) (options : Entries) :
    (∃ n, boundOf key bound options = .ok n) ↔
      ∀ v, options.option? bound.label = some v → v.isNumber = true := by
  unfold boundOf
  cases options.option? bound.label with
  | none => simp
  | some v => cases number : v.number? <;> simp [Value.isNumber, number]

theorem patternOf_ok_iff (key : Value) (regex : Option Value) :
    (∃ p, patternOf key regex = .ok p) ↔ ∀ v, regex = some v → ∃ p, v = .pattern p := by
  cases regex with
  | none => simp [patternOf]
  | some v => cases v <;> simp [patternOf]

theorem choicesOf_ok_iff (key : Value) (enum : Option Value) :
    (∃ c, choicesOf key enum = .ok c) ↔
      ∀ v, enum = some v → ∃ items, v = .list items ∨ v = .tuple items ∨ v = .set items := by
  cases enum with
  | none => simp [choicesOf]
  | some v => cases v <;> simp [choicesOf]

theorem isTextType_iff (type : TypeSpec) : isTextType type = true ↔ type = .scalar .text := by
  cases type with
  | scalar s => cases s <;> simp [isTextType]
  | nested s => simp [isTextType]
  | array item => simp [isTextType]

/-- Only the token of texts resolves to the type of texts. -/
theorem simpleType_eq_text_iff (key token : Value) :
    simpleType key token = .ok (.scalar .text) ↔ token = textToken := by
  cases token with
  | text word =>
      simp only [simpleType, simpleType?, keywordType?, textToken]
      split_ifs <;> simp
  | callable f =>
      cases f with
      | token t => cases t <;> simp [simpleType, simpleType?, tokenType?, textToken]
      | function id b => simp [simpleType, simpleType?, textToken]
  | _ => simp [simpleType, simpleType?, textToken]

theorem compileItemType_ne_text (key : Value) (items : List Value) :
    compileItemType key items ≠ .ok (.scalar .text) := by
  match items with
  | [] => simp [compileItemType]
  | [item] =>
      cases compiled : compileType key item <;>
        simp [compileItemType, compiled, bind, Except.bind, pure, Except.pure]
  | _ :: _ :: _ => simp [compileItemType]

/-- A mapping as a type declares a strict record. -/
theorem compileType_of_declared {v : Value} {entries : Entries} (key : Value)
    (declared : declared? v = some entries) :
    compileType key v =
      ((compileEntries false entries).mapError (.nested key)).map
        fun rules => .nested ⟨rules, false⟩ := by
  cases v with
  | object own =>
      cases declared
      rfl
  | frozen own =>
      cases declared
      rfl
  | _ => cases declared

theorem compileType_eq_text_iff (key token : Value) :
    compileType key token = .ok (.scalar .text) ↔ token = textToken := by
  cases declared : declared? token with
  | some entries =>
      rw [compileType_of_declared key declared]
      constructor
      · cases (compileEntries false entries).mapError (SchemaError.nested key) <;>
          simp [Except.map]
      · intro same
        subst same
        cases declared
  | none =>
      cases token with
      | list items => simp [compileType, compileItemType_ne_text, textToken]
      | tuple items => simp [compileType, compileItemType_ne_text, textToken]
      | object entries => cases declared
      | frozen entries => cases declared
      | _ => simp only [compileType, simpleType_eq_text_iff]

/-- Nothing is asked of the type of a rule with neither a pattern nor accepted values. -/
theorem textOnly_iff (type : TypeSpec) (regex enum : Option Value) :
    ¬ ((regex.isSome || enum.isSome) = true ∧ (!isTextType type) = true) ↔
      (∀ v, regex = some v → type = .scalar .text) ∧
        ∀ v, enum = some v → type = .scalar .text := by
  rw [← isTextType_iff]
  cases regex <;> cases enum <;> simp

/-- The options of a rule are accepted exactly when each of them is what it has to be;
that a pattern and accepted values need texts is a condition on the type. -/
theorem ruleOf_ok_iff (key token : Value) (type : TypeSpec) (options : Entries)
    (resolved : type = .scalar .text ↔ token = textToken) :
    (∃ r, ruleOf key type options = .ok r) ↔ AdmitsOptions token options := by
  have checks : (∃ r, ruleOf key type options = .ok r) ↔
      ((∀ v, options.option? "regex" = some v → type = .scalar .text) ∧
        ∀ v, options.option? "enum" = some v → type = .scalar .text) ∧
      (∃ p, patternOf key (options.option? "regex") = .ok p) ∧
      (∃ c, choicesOf key (options.option? "enum") = .ok c) ∧
      (∃ c, customOf key ((options.option? "custom").getD .null) = .ok c) ∧
      (∃ n, boundOf key .min options = .ok n) ∧ ∃ n, boundOf key .max options = .ok n := by
    rw [← textOnly_iff]
    unfold ruleOf
    simp only [Bool.and_eq_true]
    split
    · rename_i refused
      simp [refused, bind_ok_iff]
    · rename_i accepted
      rw [iff_true_intro accepted, true_and]
      simp [bind_ok_iff, fmap_ok_iff, exists_and_right]
  rw [checks, patternOf_ok_iff, choicesOf_ok_iff, customOf_option_ok_iff, boundOf_ok_iff,
    boundOf_ok_iff, resolved]
  constructor
  · intro checked
    obtain ⟨⟨regexText, enumText⟩, pattern, choices, custom, min, max⟩ := checked
    refine ⟨fun v found => ⟨regexText v found, pattern v found⟩,
      fun v found => ⟨enumText v found, choices v found⟩, custom, fun bound => ?_⟩
    cases bound with
    | min => exact min
    | max => exact max
  · intro admitted
    exact ⟨⟨fun v found => (admitted.pattern v found).1,
        fun v found => (admitted.choices v found).1⟩,
      fun v found => (admitted.pattern v found).2, fun v found => (admitted.choices v found).2,
      admitted.custom, admitted.bounds .min, admitted.bounds .max⟩

/-! ### Compiling -/

/-- The type among some options is the compiled value under the type key. -/
theorem compileTypeIn_eq (key : Value) (options : Entries) :
    compileTypeIn key options = (options.get? typeKey).map (compileType key) := by
  induction options with
  | nil => rfl
  | cons e rest ih =>
      obtain ⟨k, v⟩ := e
      simp only [compileTypeIn, Entries.get?]
      split
      · rfl
      · exact ih

/-- A mapping with a type is compiled to a rule of that type. -/
theorem compileEntry_of_type {v token : Value} {options : Entries} (key : Value)
    (declared : declared? v = some options) (typed : options.get? typeKey = some token) :
    compileEntry key v = compileType key token >>= fun type => ruleOf key type options := by
  have found : compileTypeIn key options = some (compileType key token) := by
    rw [compileTypeIn_eq, typed, Option.map_some]
  cases v with
  | object own =>
      cases declared
      rw [compileEntry, found]
  | frozen own =>
      cases declared
      rw [compileEntry, found]
  | _ => cases declared

/-- A mapping without a type is compiled to a rule that asks for a record. -/
theorem compileEntry_of_no_type {v : Value} {entries : Entries} (key : Value)
    (declared : declared? v = some entries) (untyped : entries.get? typeKey = none) :
    compileEntry key v = do
      let custom ← customOf key ((entries.get? (.text "custom")).getD .null)
      let rules ← (compileEntries true entries).mapError (.nested key)
      return nestedRule key rules custom entries := by
  have found : compileTypeIn key entries = none := by
    rw [compileTypeIn_eq, untyped, Option.map_none]
  cases v with
  | object own =>
      cases declared
      rw [compileEntry, found]
  | frozen own =>
      cases declared
      rw [compileEntry, found]
  | _ => cases declared

/-- A type alone is compiled to a rule that asks for a value of that type. -/
theorem compileEntry_of_bare {v : Value} (key : Value) (bare : declared? v = none) :
    compileEntry key v = (compileType key v).map (requiredRule key) := by
  cases v with
  | object own => cases bare
  | frozen own => cases bare
  | _ => rw [compileEntry, compileType] <;> simp

theorem isEntry_iff_of_type {v token : Value} {options : Entries}
    (declared : declared? v = some options) (typed : options.get? typeKey = some token) :
    IsEntry v ↔ IsType token ∧ AdmitsOptions token options := by
  constructor
  · intro entry
    cases entry with
    | nested own untyped =>
        cases own.symm.trans declared
        cases untyped.symm.trans typed
    | rule own found token admitted =>
        cases own.symm.trans declared
        cases found.symm.trans typed
        exact ⟨token, admitted⟩
    | bare own => cases own.symm.trans declared
  · intro checked
    obtain ⟨isType, admitted⟩ := checked
    exact .rule declared typed isType admitted

theorem isEntry_iff_of_no_type {v : Value} {entries : Entries}
    (declared : declared? v = some entries) (untyped : entries.get? typeKey = none) :
    IsEntry v ↔ AdmitsCustom entries ∧ ∀ e ∈ entries, isMetaKey e.1 = false → IsEntry e.2 := by
  constructor
  · intro entry
    cases entry with
    | nested own _ admitted inner =>
        cases own.symm.trans declared
        exact ⟨admitted, inner⟩
    | rule own found =>
        cases own.symm.trans declared
        cases found.symm.trans untyped
    | bare own => cases own.symm.trans declared
  · intro checked
    obtain ⟨admitted, inner⟩ := checked
    exact .nested declared untyped admitted inner

theorem isEntry_iff_of_bare {v : Value} (bare : declared? v = none) : IsEntry v ↔ IsType v := by
  constructor
  · intro entry
    cases entry with
    | nested own => cases own.symm.trans bare
    | rule own => cases own.symm.trans bare
    | bare _ isType => exact isType
  · exact .bare bare

theorem tokenType?_isSome_iff (t : TypeToken) :
    (tokenType? t).isSome = true ↔ t ∈ supportedTokens := by
  cases t <;> simp [tokenType?, supportedTokens]

theorem keywordType?_isSome_iff (word : String) :
    (keywordType? word).isSome = true ↔ word ∈ typeKeywords := by
  simp only [keywordType?, typeKeywords, Scalar.label, beq_iff_eq, List.mem_cons,
    List.not_mem_nil, or_false]
  split_ifs with timeBased random
  · simp [timeBased]
  · simp [random]
  · simp [timeBased, random]

theorem simpleType_ok_iff_isSome (key v : Value) :
    (∃ type, simpleType key v = .ok type) ↔ (simpleType? v).isSome = true := by
  unfold simpleType
  cases simpleType? v <;> simp

theorem compileType_of_simple {v : Value} (key : Value) (noItems : v.items? = none)
    (bare : declared? v = none) : compileType key v = simpleType key v := by
  cases v with
  | list items => cases noItems
  | tuple items => cases noItems
  | object entries => cases bare
  | frozen entries => cases bare
  | _ => rw [compileType] <;> simp

/-- What is neither an array nor a mapping is a type by itself or not at all. -/
theorem compileType_ok_iff_of_simple {v : Value} (key : Value) (noItems : v.items? = none)
    (bare : declared? v = none) : (∃ type, compileType key v = .ok type) ↔ IsType v := by
  rw [compileType_of_simple key noItems bare]
  constructor
  · intro compiled
    rw [simpleType_ok_iff_isSome] at compiled
    cases v with
    | text word => exact .keyword ((keywordType?_isSome_iff word).mp compiled)
    | callable f =>
        cases f with
        | token t => exact .token ((tokenType?_isSome_iff t).mp compiled)
        | function id b => cases compiled
    | schema id s => exact .schema
    | validator id s => exact .validator
    | _ => cases compiled
  · intro isType
    rw [simpleType_ok_iff_isSome]
    cases isType with
    | token supported => exact (tokenType?_isSome_iff _).mpr supported
    | keyword known => exact (keywordType?_isSome_iff _).mpr known
    | schema => rfl
    | validator => rfl
    | anyItems own => cases own.symm.trans noItems
    | items own => cases own.symm.trans noItems
    | record own => cases own.symm.trans bare

theorem isType_iff_of_items {v : Value} {items : List Value} (own : v.items? = some items) :
    IsType v ↔ items = [] ∨ ∃ item, items = [item] ∧ IsType item := by
  constructor
  · intro isType
    cases isType with
    | anyItems none => exact .inl (Option.some.inj (own.symm.trans none))
    | items one item => exact .inr ⟨_, Option.some.inj (own.symm.trans one), item⟩
    | record declared => cases v <;> simp_all [Value.items?, declared?]
    | _ => cases own
  · intro atMostOne
    rcases atMostOne with rfl | ⟨item, rfl, isType⟩
    · exact .anyItems own
    · exact .items own isType

theorem isType_iff_of_declared {v : Value} {entries : Entries}
    (declared : declared? v = some entries) :
    IsType v ↔ ∀ e ∈ entries, IsEntry e.2 := by
  constructor
  · intro isType
    cases isType with
    | record own inner =>
        cases own.symm.trans declared
        exact inner
    | anyItems items => cases v <;> simp_all [Value.items?, declared?]
    | items items => cases v <;> simp_all [Value.items?, declared?]
    | _ => cases declared
  · exact .record declared

/-- The entry of a property that is a mapping is compiled exactly if it is one of the
grammar, provided that its parts are. -/
theorem compileEntry_ok_iff_of_declared {v : Value} {entries : Entries} (key : Value)
    (declared : declared? v = some entries)
    (types : ∀ token, entries.get? typeKey = some token →
      ((∃ type, compileType key token = .ok type) ↔ IsType token))
    (own : (∃ rules, compileEntries true entries = .ok rules) ↔
      ∀ e ∈ entries, (true && isMetaKey e.1) = false → IsEntry e.2) :
    (∃ r, compileEntry key v = .ok r) ↔ IsEntry v := by
  cases typed : entries.get? typeKey with
  | some token =>
      rw [compileEntry_of_type key declared typed, bind_ok_iff,
        isEntry_iff_of_type declared typed, ← types token typed, ← exists_and_right]
      refine exists_congr fun type => and_congr_right fun compiled => ?_
      apply ruleOf_ok_iff
      rw [← compileType_eq_text_iff key token, compiled, Except.ok.injEq]
  | none =>
      rw [compileEntry_of_no_type key declared typed, isEntry_iff_of_no_type declared typed,
        ← customOf_get_ok_iff key]
      simp only [Bool.true_and] at own
      simp only [bind_ok_iff, bind_pure_comp, fmap_ok_iff, mapError_ok_iff, exists_and_right, own]

mutual

/-- Entries are compiled exactly if each one that is not passed over is one of the
grammar. -/
theorem compileEntries_ok_iff (inner : Bool) (entries : List (Value × Value)) :
    (∃ rules, compileEntries inner entries = .ok rules) ↔
      ∀ e ∈ entries, (inner && isMetaKey e.1) = false → IsEntry e.2 := by
  match entries with
  | [] => simp [compileEntries]
  | (key, entry) :: rest =>
      have first := compileEntry_ok_iff key entry
      have others := compileEntries_ok_iff inner rest
      rw [compileEntries, List.forall_mem_cons, ← others, ← first]
      split
      · rename_i passed
        simp [passed]
      · rename_i kept
        simp [kept, bind_ok_iff, fmap_ok_iff]
termination_by structural entries

/-- The entry of a property is compiled exactly if it is one of the grammar. -/
theorem compileEntry_ok_iff (key v : Value) :
    (∃ r, compileEntry key v = .ok r) ↔ IsEntry v := by
  cases v with
  | object entries =>
      exact compileEntry_ok_iff_of_declared key rfl (compileTypeIn_ok_iff key entries)
        (compileEntries_ok_iff true entries)
  | frozen entries =>
      exact compileEntry_ok_iff_of_declared key rfl (compileTypeIn_ok_iff key entries)
        (compileEntries_ok_iff true entries)
  | list items =>
      rw [compileEntry_of_bare key rfl, map_ok_iff, isEntry_iff_of_bare rfl, compileType,
        isType_iff_of_items rfl, compileItemType_ok_iff]
  | tuple items =>
      rw [compileEntry_of_bare key rfl, map_ok_iff, isEntry_iff_of_bare rfl, compileType,
        isType_iff_of_items rfl, compileItemType_ok_iff]
  | _ =>
      rw [compileEntry_of_bare key rfl, map_ok_iff, isEntry_iff_of_bare rfl]
      exact compileType_ok_iff_of_simple key rfl rfl
termination_by structural v

/-- The type among some options is compiled exactly if it is one of the grammar. -/
theorem compileTypeIn_ok_iff (key : Value) (options : List (Value × Value)) :
    ∀ token, Entries.get? options typeKey = some token →
      ((∃ type, compileType key token = .ok type) ↔ IsType token) := by
  match options with
  | [] =>
      intro token typed
      cases typed
  | (k, v) :: rest =>
      intro token typed
      rw [Entries.get?] at typed
      split at typed
      · cases typed
        exact compileType_ok_iff key v
      · exact compileTypeIn_ok_iff key rest token typed
termination_by structural options

/-- A type is compiled exactly if it is one of the grammar. -/
theorem compileType_ok_iff (key v : Value) :
    (∃ type, compileType key v = .ok type) ↔ IsType v := by
  cases v with
  | object entries =>
      rw [compileType_of_declared key rfl, map_ok_iff, mapError_ok_iff, compileEntries_ok_iff,
        isType_iff_of_declared rfl]
      simp
  | frozen entries =>
      rw [compileType_of_declared key rfl, map_ok_iff, mapError_ok_iff, compileEntries_ok_iff,
        isType_iff_of_declared rfl]
      simp
  | list items => rw [compileType, isType_iff_of_items rfl, compileItemType_ok_iff]
  | tuple items => rw [compileType, isType_iff_of_items rfl, compileItemType_ok_iff]
  | _ => exact compileType_ok_iff_of_simple key rfl rfl
termination_by structural v

/-- The type of an array is compiled exactly if it has at most one item type. -/
theorem compileItemType_ok_iff (key : Value) (items : List Value) :
    (∃ type, compileItemType key items = .ok type) ↔
      items = [] ∨ ∃ item, items = [item] ∧ IsType item := by
  match items with
  | [] => simp [compileItemType]
  | [item] =>
      have type := compileType_ok_iff key item
      simp [compileItemType, fmap_ok_iff, type]
  | _ :: _ :: _ => simp [compileItemType]
termination_by structural items

end

/-- A mapping is compiled to the schema of its entries. -/
theorem compile_of_declared {v : Value} {entries : Entries} (strict : Bool)
    (declared : declared? v = some entries) :
    compile v strict = (compileEntries false entries).map fun rules => ⟨rules, !strict⟩ := by
  cases v with
  | object own =>
      cases declared
      rfl
  | frozen own =>
      cases declared
      rfl
  | _ => cases declared

/-- A schema comes out of a declaration exactly if the declaration is well formed. -/
theorem compile_isOk_iff (declaration : Value) (strict : Bool) :
    (∃ s, compile declaration strict = .ok s) ↔ WellFormed declaration := by
  cases declared : declared? declaration with
  | some entries =>
      rw [compile_of_declared strict declared, map_ok_iff, compileEntries_ok_iff]
      simp only [Bool.false_and, true_imp_iff]
      constructor
      · exact .entries declared
      · intro wellFormed
        cases wellFormed with
        | entries own inner =>
            cases own.symm.trans declared
            exact inner
        | _ => cases declared
  | none =>
      constructor
      · intro compiles
        obtain ⟨s, compiled⟩ := compiles
        cases declaration with
        | schema id s => exact .schema
        | validator id s => exact .validator
        | object entries => cases declared
        | frozen entries => cases declared
        | _ => cases compiled
      · intro wellFormed
        cases wellFormed with
        | schema => exact ⟨_, rfl⟩
        | validator => exact ⟨_, rfl⟩
        | entries own => cases own.symm.trans declared

/-- Compiling a declaration gives a schema exactly if the declaration is well formed, and
an error of declarations otherwise, whatever mode is asked for. -/
theorem compile_ok_iff_wellFormed (declaration : Value) (strict : Bool) :
    ((∃ s, compile declaration strict = .ok s) ↔ WellFormed declaration) ∧
      ((∃ e, compile declaration strict = .error e) ↔ ¬ WellFormed declaration) := by
  refine ⟨compile_isOk_iff declaration strict, ?_⟩
  rw [← compile_isOk_iff declaration strict]
  cases compile declaration strict <;> simp

end DataContract.Declaration
