/-
# What compiling keeps of a declaration

A declaration whose mappings have keys that can be told apart, and of which no part is
held by others too, gives schemas whose rules have names that can be told apart and
messages of their own, however deep the schemas lie.
-/

import DataContract.Proofs.Schema.Grammar
import DataContract.Proofs.Validation.Conformity

set_option autoImplicit false

namespace DataContract

/-- A schema whose names can be told apart and whose messages nobody else holds. -/
structure Schema.Owned (s : Schema) : Prop where
  names : s.NamesApart
  messages : ∀ r ∈ s.rules, ∀ cell, r.message ≠ some (.shared cell)

/-- Entries whose keys can be told apart. -/
structure Entries.KeysApart (entries : Entries) : Prop where
  known : ∀ e ∈ entries, e.1.identity?.isSome = true
  apart : (entries.map fun e => e.1.identity?).Nodup

mutual

/-- A declaration of which no list or mapping is held by others too, whose mappings have
keys that can be told apart, and whose compiled parts are owned. -/
def Value.Distinct : Value → Prop
  | .list items => ItemsDistinct items
  | .tuple items => ItemsDistinct items
  | .object entries => Entries.KeysApart entries ∧ EntriesDistinct entries
  | .frozen entries => Entries.KeysApart entries ∧ EntriesDistinct entries
  | .schema _ s => s.Throughout Schema.Owned
  | .validator _ s => s.Throughout Schema.Owned
  | .shared _ => False
  | _ => True
  termination_by structural v => v

/-- Items that are distinct declarations. -/
def ItemsDistinct : List Value → Prop
  | [] => True
  | v :: rest => v.Distinct ∧ ItemsDistinct rest
  termination_by structural items => items

/-- Entries whose values are distinct declarations. -/
def EntriesDistinct : List (Value × Value) → Prop
  | [] => True
  | (_, v) :: rest => v.Distinct ∧ EntriesDistinct rest
  termination_by structural entries => entries

end

namespace Declaration

theorem entriesDistinct_get? {entries : Entries} (distinct : EntriesDistinct entries) {n v : Value}
    (found : entries.get? n = some v) : v.Distinct := by
  induction entries with
  | nil => cases found
  | cons e rest ih =>
      obtain ⟨k, own⟩ := e
      rw [EntriesDistinct] at distinct
      rw [Entries.get?] at found
      split at found
      · exact Option.some.inj found ▸ distinct.1
      · exact ih distinct.2 found

theorem distinct_of_declared {v : Value} {entries : Entries} (declared : declared? v = some entries)
    (distinct : v.Distinct) : entries.KeysApart ∧ EntriesDistinct entries := by
  cases v with
  | object own | frozen own =>
      cases declared
      rw [Value.Distinct] at distinct
      exact distinct
  | _ => cases declared

/-- A rule with options is named by its key and takes its type and its message as given. -/
theorem ruleOf_fields {key : Value} {type : TypeSpec} {options : Entries} {r : Rule}
    (compiled : ruleOf key type options = .ok r) :
    r.name = key ∧ r.type = type ∧ r.message = options.option? "message" := by
  unfold ruleOf at compiled
  simp only [bind, Except.bind, pure, Except.pure] at compiled
  repeat' split at compiled
  all_goals first | (cases compiled; exact ⟨rfl, rfl, rfl⟩) | cases compiled

/-- The rule of an entry is named by the key, and its message, if it has one, is an option
of the entry. -/
theorem compileEntry_fields {key v : Value} {r : Rule} (compiled : compileEntry key v = .ok r) :
    r.name = key ∧ ∀ m, r.message = some m →
      ∃ options, declared? v = some options ∧ options.option? "message" = some m := by
  cases declared : declared? v with
  | none =>
      rw [compileEntry_of_bare key declared] at compiled
      cases type : compileType key v with
      | error e =>
          rw [type] at compiled
          cases compiled
      | ok t =>
          rw [type] at compiled
          cases compiled
          refine ⟨rfl, fun m own => ?_⟩
          cases own
  | some options =>
      cases typed : options.get? typeKey with
      | some token =>
          rw [compileEntry_of_type key declared typed] at compiled
          cases type : compileType key token with
          | error e =>
              rw [type] at compiled
              cases compiled
          | ok t =>
              rw [type] at compiled
              obtain ⟨name, -, message⟩ := ruleOf_fields compiled
              exact ⟨name, fun m own => ⟨options, rfl, message ▸ own⟩⟩
      | none =>
          rw [compileEntry_of_no_type key declared typed] at compiled
          simp only [bind, Except.bind, pure, Except.pure] at compiled
          split at compiled
          · cases compiled
          · split at compiled
            · cases compiled
            · cases compiled
              refine ⟨rfl, fun m own => ?_⟩
              cases own

/-- The first entry is passed over, or its rule comes first. -/
theorem compileEntries_cons {inner : Bool} {key entry : Value} {rest : List (Value × Value)}
    {rules : List Rule} (compiled : compileEntries inner ((key, entry) :: rest) = .ok rules) :
    compileEntries inner rest = .ok rules ∨
      ∃ r others, compileEntry key entry = .ok r ∧ compileEntries inner rest = .ok others ∧
        rules = r :: others := by
  rw [compileEntries] at compiled
  split at compiled
  · exact .inl compiled
  · cases first : compileEntry key entry with
    | error e =>
        rw [first] at compiled
        cases compiled
    | ok r =>
        cases later : compileEntries inner rest with
        | error e =>
            rw [first, later] at compiled
            cases compiled
        | ok others =>
            rw [first, later] at compiled
            cases compiled
            exact .inr ⟨r, others, rfl, rfl, rfl⟩

/-- The names of rules are keys of their declaration, in order. -/
theorem names_sublist {inner : Bool} {entries : List (Value × Value)} {rules : List Rule}
    (compiled : compileEntries inner entries = .ok rules) :
    (rules.map (·.name)).Sublist (entries.map (·.1)) := by
  induction entries generalizing rules with
  | nil =>
      cases compiled
      exact .slnil
  | cons e rest ih =>
      obtain ⟨key, entry⟩ := e
      rcases compileEntries_cons compiled with passed | ⟨r, others, first, later, rfl⟩
      · exact (ih passed).cons key
      · rw [List.map_cons, (compileEntry_fields first).1]
        exact (ih later).cons_cons key

/-- The names of rules are keys like any other if those of their declaration are. -/
theorem names_known {inner : Bool} {entries : List (Value × Value)} {rules : List Rule}
    (compiled : compileEntries inner entries = .ok rules)
    (known : ∀ e ∈ entries, e.1.identity?.isSome = true) :
    ∀ r ∈ rules, r.name.identity?.isSome = true := by
  intro r mem
  obtain ⟨e, inEntries, key⟩ :=
    List.mem_map.mp ((names_sublist compiled).subset (List.mem_map_of_mem (f := (·.name)) mem))
  exact key ▸ known e inEntries

/-- The messages of rules are parts of their declaration. -/
theorem messages_owned {inner : Bool} {entries : List (Value × Value)} {rules : List Rule}
    (compiled : compileEntries inner entries = .ok rules) (distinct : EntriesDistinct entries) :
    ∀ r ∈ rules, ∀ cell, r.message ≠ some (.shared cell) := by
  induction entries generalizing rules with
  | nil =>
      cases compiled
      intro r mem
      cases mem
  | cons e rest ih =>
      obtain ⟨key, entry⟩ := e
      rw [EntriesDistinct] at distinct
      rcases compileEntries_cons compiled with passed | ⟨r, others, first, later, rfl⟩
      · exact ih passed distinct.2
      · refine List.forall_mem_cons.mpr ⟨fun cell own => ?_, ih later distinct.2⟩
        obtain ⟨options, declared, found⟩ := (compileEntry_fields first).2 _ own
        have below := (distinct_of_declared declared distinct.1).2
        have shared := entriesDistinct_get? below ((option?_eq_some_iff _ _ _).mp found).1
        rw [Value.Distinct] at shared
        exact shared

/-- The schema of a record is owned if those below it are. -/
theorem throughout_of_entries {inner flex : Bool} {entries : List (Value × Value)}
    {rules : List Rule} (compiled : compileEntries inner entries = .ok rules)
    (apart : Entries.KeysApart entries) (distinct : EntriesDistinct entries)
    (below : RulesThroughout Schema.Owned rules) :
    Schema.Throughout Schema.Owned ⟨rules, flex⟩ := by
  rw [Schema.Throughout]
  have identities := (names_sublist compiled).map Value.identity?
  rw [List.map_map, List.map_map] at identities
  exact ⟨⟨⟨names_known compiled apart.known, identities.nodup apart.apart⟩,
    messages_owned compiled distinct⟩, below⟩

theorem Rule.throughout_iff {condition : Schema → Prop} (r : Rule) :
    r.Throughout condition ↔ r.type.Throughout condition := by
  obtain ⟨name, type, required, custom, pattern, min, max, choices, default, message⟩ := r
  rw [Rule.Throughout]

/-- A type that is no list and no mapping holds at most the schema that it stands for. -/
theorem simpleType_throughout (key : Value) {v : Value} (distinct : v.Distinct)
    {type : TypeSpec} (compiled : simpleType key v = .ok type) : type.Throughout Schema.Owned := by
  rw [simpleType] at compiled
  split at compiled
  next found =>
    cases compiled
    cases v with
    | text word =>
        simp only [simpleType?, keywordType?] at found
        split at found
        · cases found
          trivial
        · split at found <;> cases found
          trivial
    | callable f =>
        rcases f with t | ⟨id, behaviour⟩
        · cases t <;> cases found <;> trivial
        · cases found
    | schema id s | validator id s =>
        cases found
        rw [Value.Distinct] at distinct
        exact distinct
    | _ => cases found
  · cases compiled

/-- In the rule of a mapping all schemas are owned if they are in its parts. -/
theorem throughout_of_declared {key v : Value} {entries : Entries}
    (declared : declared? v = some entries) (apart : entries.KeysApart)
    (distinct : EntriesDistinct entries)
    (types : ∀ token, entries.get? typeKey = some token → ∀ type,
      compileType key token = .ok type → type.Throughout Schema.Owned)
    (records : ∀ rules, compileEntries true entries = .ok rules →
      RulesThroughout Schema.Owned rules)
    {r : Rule} (compiled : compileEntry key v = .ok r) : r.Throughout Schema.Owned := by
  rw [Rule.throughout_iff]
  cases typed : entries.get? typeKey with
  | some token =>
      rw [compileEntry_of_type key declared typed] at compiled
      cases own : compileType key token with
      | error e =>
          rw [own] at compiled
          cases compiled
      | ok type =>
          rw [own] at compiled
          rw [(ruleOf_fields compiled).2.1]
          exact types token typed type own
  | none =>
      rw [compileEntry_of_no_type key declared typed] at compiled
      simp only [bind, Except.bind, pure, Except.pure] at compiled
      split at compiled
      · cases compiled
      · cases own : compileEntries true entries with
        | error e =>
            rw [own] at compiled
            cases compiled
        | ok rules =>
            rw [own] at compiled
            cases compiled
            exact throughout_of_entries own apart distinct (records rules own)

/-- In the rule of a type alone all schemas are owned if they are in the type. -/
theorem throughout_of_bare {key v : Value} (bare : declared? v = none)
    (types : ∀ type, compileType key v = .ok type → type.Throughout Schema.Owned)
    {r : Rule} (compiled : compileEntry key v = .ok r) : r.Throughout Schema.Owned := by
  rw [compileEntry_of_bare key bare] at compiled
  cases own : compileType key v with
  | error e =>
      rw [own] at compiled
      cases compiled
  | ok type =>
      rw [own] at compiled
      cases compiled
      exact types type own

mutual

/-- Below compiled entries all schemas are owned. -/
theorem compileEntries_throughout (inner : Bool) (entries : List (Value × Value))
    (distinct : EntriesDistinct entries) (rules : List Rule)
    (compiled : compileEntries inner entries = .ok rules) :
    RulesThroughout Schema.Owned rules := by
  match entries with
  | [] =>
      cases compiled
      trivial
  | (key, entry) :: rest =>
      rw [EntriesDistinct] at distinct
      have head := compileEntry_throughout key entry distinct.1
      have tail := compileEntries_throughout inner rest distinct.2
      rcases compileEntries_cons compiled with passed | ⟨r, others, first, later, rfl⟩
      · exact tail rules passed
      · exact ⟨head r first, tail others later⟩
  termination_by structural entries

/-- Below a compiled entry all schemas are owned. -/
theorem compileEntry_throughout (key v : Value) (distinct : v.Distinct) (r : Rule)
    (compiled : compileEntry key v = .ok r) : r.Throughout Schema.Owned := by
  cases v with
  | object entries | frozen entries =>
      rw [Value.Distinct] at distinct
      exact throughout_of_declared rfl distinct.1 distinct.2
        (compileTypeIn_throughout key entries distinct.2)
        (compileEntries_throughout true entries distinct.2) compiled
  | list items | tuple items =>
      rw [Value.Distinct] at distinct
      refine throughout_of_bare ?_ ?_ compiled
      · rfl
      · exact compileItemType_throughout key items distinct
  | _ =>
      refine throughout_of_bare ?_ ?_ compiled
      · rfl
      · exact fun type => simpleType_throughout key distinct
  termination_by structural v

/-- In the type among some options all schemas are owned. -/
theorem compileTypeIn_throughout (key : Value) (options : List (Value × Value))
    (distinct : EntriesDistinct options) (token : Value)
    (typed : Entries.get? options typeKey = some token) (type : TypeSpec)
    (compiled : compileType key token = .ok type) : type.Throughout Schema.Owned := by
  match options with
  | [] => cases typed
  | (k, v) :: rest =>
      rw [EntriesDistinct] at distinct
      have head := compileType_throughout key v distinct.1
      have tail := compileTypeIn_throughout key rest distinct.2
      rw [Entries.get?] at typed
      split at typed
      · cases typed
        exact head type compiled
      · exact tail token typed type compiled
  termination_by structural options

/-- In a compiled type all schemas are owned. -/
theorem compileType_throughout (key v : Value) (distinct : v.Distinct) (type : TypeSpec)
    (compiled : compileType key v = .ok type) : type.Throughout Schema.Owned := by
  cases v with
  | object entries | frozen entries =>
      rw [Value.Distinct] at distinct
      have below := compileEntries_throughout false entries distinct.2
      rw [compileType_of_declared key rfl] at compiled
      cases rules : compileEntries false entries with
      | error e =>
          rw [rules] at compiled
          cases compiled
      | ok own =>
          rw [rules] at compiled
          cases compiled
          exact throughout_of_entries rules distinct.1 distinct.2 (below own rules)
  | list items | tuple items =>
      rw [Value.Distinct] at distinct
      rw [compileType] at compiled
      exact compileItemType_throughout key items distinct type compiled
  | _ => exact simpleType_throughout key distinct compiled
  termination_by structural v

/-- In the item type of an array all schemas are owned. -/
theorem compileItemType_throughout (key : Value) (items : List Value)
    (distinct : ItemsDistinct items) (type : TypeSpec)
    (compiled : compileItemType key items = .ok type) : type.Throughout Schema.Owned := by
  match items with
  | [] =>
      cases compiled
      trivial
  | [item] =>
      rw [ItemsDistinct] at distinct
      have below := compileType_throughout key item distinct.1
      rw [compileItemType] at compiled
      cases own : compileType key item with
      | error e =>
          rw [own] at compiled
          cases compiled
      | ok type =>
          rw [own] at compiled
          cases compiled
          exact below type own
  | _ :: _ :: _ => cases compiled
  termination_by structural items

end

/-! ### Errors -/

/-- What fails as the compiler fails: with an error of its own kind. It reads no patterns and
does not go into what has no end. -/
def Readable {α : Type} (x : Except SchemaError α) : Prop :=
  ∀ e, x = .error e → e.isForeign = false

theorem Readable.ok {α : Type} (a : α) : Readable (.ok a) := by
  intro e same
  cases same

theorem Readable.error {α : Type} {e : SchemaError} (own : e.isForeign = false) :
    Readable (.error e : Except SchemaError α) := by
  intro e' same
  cases same
  exact own

theorem Readable.map {α β : Type} {x : Except SchemaError α} (readable : Readable x) (f : α → β) :
    Readable (x.map f) := by
  cases x with
  | error e => exact .error (readable e rfl)
  | ok a => exact .ok (f a)

theorem Readable.bind {α β : Type} {x : Except SchemaError α} {next : α → Except SchemaError β}
    (readable : Readable x) (further : ∀ a, Readable (next a)) : Readable (x.bind next) := by
  cases x with
  | error e => exact .error (readable e rfl)
  | ok a => exact further a

/-- An error of a nested declaration is wrapped. -/
theorem readable_nested {α : Type} (key : Value) (x : Except SchemaError α) :
    Readable (x.mapError (.nested key)) := by
  cases x with
  | error e => exact .error rfl
  | ok a => exact .ok a

theorem simpleType_readable (key token : Value) : Readable (simpleType key token) := by
  rw [simpleType]
  split
  · exact .ok _
  · exact .error rfl

theorem customOf_readable (key custom : Value) : Readable (customOf key custom) := by
  cases custom <;> first | exact .ok _ | exact .error rfl

theorem boundOf_readable (key : Value) (bound : Bound) (options : Entries) :
    Readable (boundOf key bound options) := by
  rw [boundOf]
  split
  · exact .ok none
  · split
    · exact .ok _
    · exact .error rfl

theorem ruleOf_readable (key : Value) (type : TypeSpec) (options : Entries) :
    Readable (ruleOf key type options) := by
  have pattern : Readable (patternOf key (options.option? "regex")) := by
    rw [patternOf.eq_def]
    split <;> first | exact .ok _ | exact .error rfl
  have choices : Readable (choicesOf key (options.option? "enum")) := by
    rw [choicesOf.eq_def]
    split <;> first | exact .ok _ | exact .error rfl
  unfold ruleOf
  dsimp only
  split
  · exact .error rfl
  · refine pattern.bind fun _ => choices.bind fun _ => ?_
    refine (customOf_readable key _).bind fun _ => ?_
    refine (boundOf_readable key .min options).bind fun _ => ?_
    exact (boundOf_readable key .max options).bind fun _ => .ok _

mutual

/-- Compiling a type fails with the errors of the compiler alone. -/
theorem compileType_readable (key v : Value) : Readable (compileType key v) := by
  cases v with
  | object entries | frozen entries =>
      rw [compileType_of_declared key rfl]
      exact (readable_nested key _).map _
  | list items | tuple items =>
      rw [compileType]
      exact compileItemType_readable key items
  | _ =>
      unfold compileType
      exact simpleType_readable key _
  termination_by structural v

/-- Compiling an item type fails with the errors of the compiler alone. -/
theorem compileItemType_readable (key : Value) (items : List Value) :
    Readable (compileItemType key items) := by
  match items with
  | [] => exact .ok _
  | [item] =>
      rw [compileItemType]
      exact (compileType_readable key item).bind fun _ => .ok _
  | _ :: _ :: _ => exact .error rfl
  termination_by structural items

end

/-- Compiling an entry fails with the errors of the compiler alone. -/
theorem compileEntry_readable (key v : Value) : Readable (compileEntry key v) := by
  cases declared : declared? v with
  | none =>
      rw [compileEntry_of_bare key declared]
      exact (compileType_readable key v).map _
  | some options =>
      cases typed : options.get? typeKey with
      | some token =>
          rw [compileEntry_of_type key declared typed]
          exact (compileType_readable key token).bind fun type => ruleOf_readable key type options
      | none =>
          rw [compileEntry_of_no_type key declared typed]
          refine (customOf_readable key _).bind fun custom => ?_
          exact (readable_nested key _).bind fun _ => .ok _

/-- Compiling a declaration fails with the errors of the compiler alone. -/
theorem compile_readable (declaration : Value) (strict : Bool) :
    Readable (compile declaration strict) := by
  have entries (inner : Bool) (entries : List (Value × Value)) :
      Readable (compileEntries inner entries) := by
    induction entries with
    | nil => exact .ok []
    | cons e rest ih =>
        obtain ⟨key, entry⟩ := e
        rw [compileEntries]
        split
        · exact ih
        · exact (compileEntry_readable key entry).bind fun _ => ih.bind fun _ => .ok _
  rw [compile]
  split
  · exact .ok _
  · split
    · exact (entries false _).bind fun _ => .ok _
    · exact .error rfl

/-- In a schema that is compiled from a distinct declaration all schemas are owned. -/
theorem compile_throughout {declaration : Value} {strict : Bool} {s : Schema}
    (distinct : declaration.Distinct) (compiled : compile declaration strict = .ok s) :
    s.Throughout Schema.Owned := by
  cases declaration with
  | schema id own | validator id own =>
      cases compiled
      rw [Value.Distinct] at distinct
      exact distinct
  | object entries | frozen entries =>
      rw [Value.Distinct] at distinct
      rw [compile_of_declared strict rfl] at compiled
      cases rules : compileEntries false entries with
      | error e =>
          rw [rules] at compiled
          cases compiled
      | ok own =>
          rw [rules] at compiled
          cases compiled
          exact throughout_of_entries rules distinct.1 distinct.2
            (compileEntries_throughout false entries distinct.2 own rules)
  | _ => cases compiled

end Declaration

end DataContract
