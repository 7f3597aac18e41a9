/-
# What documents declare

Reading a document and compiling what was read gives the schema that the document
declares, and gives one exactly if the document is well formed. In what was read, names
stand nowhere where the compiler expects a type, and texts nowhere where it expects a
pattern.
-/

import DataContract.Proofs.Schema.DocumentReading

set_option autoImplicit false

namespace DataContract.Document

open Declaration (bind_eq_ok typeKey isMetaKey isTextType compileType compileItemType compileEntry
  compileEntries ruleOf customOf nestedRule requiredRule typeKeywords keywordType?)

variable {order : List String} {key : Value}

theorem readTypeIn_eq (key : Value) (options : Entries) :
    readTypeIn order key options = (options.get? typeKey).map (readType order key) := by
  induction options with
  | nil => rfl
  | cons e rest ih =>
      obtain ⟨k, v⟩ := e
      rw [readTypeIn, Entries.get?]
      split
      · rfl
      · exact ih

/-- A mapping with a type is read with its type and its pattern. -/
theorem readEntry_of_type {entries : Entries} {token : Value} (key : Value)
    (typed : entries.get? typeKey = some token) :
    readEntry order key (.object entries) = do
      let type ← readType order key token
      return .object (← readPattern key (entries.put typeKey type)) := by
  rw [readEntry, readTypeIn_eq, typed, Option.map_some]

/-- A mapping without a type is read as a declaration, and the keys about the property are
put to its end. -/
theorem readEntry_of_no_type {entries : Entries} (key : Value)
    (untyped : entries.get? typeKey = none) :
    readEntry order key (.object entries) = do
      return .object (appendMeta order entries (← readEntries order true entries [])) := by
  rw [readEntry, readTypeIn_eq, untyped, Option.map_none]

/-! ## Nested declarations -/

theorem option?_getD_null (entries : Entries) (name : String) :
    (entries.option? name).getD .null = (entries.get? (.text name)).getD .null := by
  rw [Entries.option?]
  split
  next null => rw [null]; rfl
  next => rfl

theorem isMetaKey_of_mem (either : order.Perm defaultMetaOrder) {name : String}
    (mem : name ∈ order) : isMetaKey (.text name) = true := by
  have known := either.mem_iff.mp mem
  simp only [defaultMetaOrder, List.mem_cons, List.not_mem_nil, or_false] at known
  rcases known with rfl | rfl <;> rfl

/-- The keys about a property that a declaration has, in a given order. -/
def metaEntries (order : List String) (source : Entries) : Entries :=
  order.filterMap fun name => (source.get? (.text name)).map (.text name, ·)

theorem isMetaKey_of_mem_metaEntries (either : order.Perm defaultMetaOrder) {source : Entries}
    {e : Value × Value} (mem : e ∈ metaEntries order source) : isMetaKey e.1 = true := by
  obtain ⟨name, listed, found⟩ := List.mem_filterMap.mp mem
  obtain ⟨v, -, rfl⟩ := Option.map_eq_some_iff.mp found
  exact isMetaKey_of_mem either listed

theorem metaEntries_congr {source other : Entries}
    (same : ∀ name ∈ order, other.get? (.text name) = source.get? (.text name)) :
    metaEntries order other = metaEntries order source := by
  induction order with
  | nil => rfl
  | cons name rest ih =>
      rw [List.forall_mem_cons] at same
      rw [metaEntries, metaEntries, List.filterMap_cons, List.filterMap_cons, same.1]
      have later := ih same.2
      rw [metaEntries, metaEntries] at later
      rw [later]

/-- Keys about a property that are not there are added at the end. -/
theorem appendMeta_eq (nodup : order.Nodup) (source : Entries) {read : Entries}
    (new : ∀ name ∈ order, read.get? (.text name) = none) :
    appendMeta order source read = read ++ metaEntries order source := by
  induction order generalizing read with
  | nil => exact (List.append_nil read).symm
  | cons name rest ih =>
      rw [List.nodup_cons] at nodup
      rw [List.forall_mem_cons] at new
      rw [appendMeta, List.foldl_cons, metaEntries, List.filterMap_cons]
      cases found : source.get? (.text name) with
      | none => exact ih nodup.2 new.2
      | some v =>
          have stillNew : ∀ other ∈ rest,
              Entries.get? (read ++ [(.text name, v)]) (.text other) = none := by
            intro other mem
            have differ : (Value.text name).equal (.text other) = false := by
              rw [Bool.eq_false_iff, ne_eq, Value.text_equal_text]
              rintro rfl
              exact nodup.1 mem
            rw [Entries.get?_append, new.2 other mem, Entries.get?, differ]
            rfl
          dsimp only [Option.map_some]
          rw [Entries.put_of_get?_none new.1]
          exact (ih nodup.2 stillNew).trans (List.append_assoc _ _ _)

/-- What is read of a nested declaration, with the keys about the property at its end. -/
theorem appendMeta_read (either : order.Perm defaultMetaOrder) (source : Entries) {read : Entries}
    (kept : ∀ e ∈ read, isMetaKey e.1 = false) :
    appendMeta order source read = read ++ metaEntries order source ∧
      ∀ name ∈ order,
        (appendMeta order source read).get? (.text name) = source.get? (.text name) := by
  have new : ∀ name ∈ order, read.get? (.text name) = none := by
    intro name listed
    rw [Entries.get?_eq_none_iff]
    intro e mem
    rw [Bool.eq_false_iff]
    intro same
    have about := kept e mem
    rw [isMetaKey_congr same, isMetaKey_of_mem either listed] at about
    cases about
  refine ⟨appendMeta_eq (either.nodup_iff.mpr (by decide)) source new, fun name listed => ?_⟩
  rw [get?_appendMeta, if_pos listed, new name listed, Option.or_none]

/-- A nested declaration gets no type from the keys about the property either. -/
theorem nested_untyped (either : order.Perm defaultMetaOrder) {entries read : Entries}
    (untyped : entries.get? typeKey = none)
    (outcome : readEntries order true entries [] = .ok read) :
    (appendMeta order entries read).get? typeKey = none := by
  have unlisted : "type" ∉ order := fun mem => by
    simpa [defaultMetaOrder] using either.mem_iff.mp mem
  rw [typeKey, get?_appendMeta, if_neg unlisted]
  exact (nested_keys untyped outcome).2

/-- The rule of a nested declaration comes from its rules and from what it says about the
property. -/
theorem nested_compile {entries read : Entries} (either : order.Perm defaultMetaOrder)
    (document : EntriesInDocument entries) (untyped : entries.get? typeKey = none)
    (outcome : readEntries order true entries [] = .ok read) :
    (compileEntry key (.object (appendMeta order entries read))).toOption =
      if (entries.option? "custom").isSome then none
      else (compileEntries true read).toOption.map fun rules =>
        { Rule.ofType key (.nested ⟨rules, false⟩) with
          required := (entries.get? (.text "required")).any Value.truthy } := by
  have stillUntyped := nested_untyped either untyped outcome
  have found := (appendMeta_read either entries (nested_keys untyped outcome).1).2
  have required := found "required" (either.mem_iff.mpr (by decide))
  have custom := found "custom" (either.mem_iff.mpr (by decide))
  have checked : (customOf key ((entries.get? (.text "custom")).getD .null)).toOption =
      if (entries.option? "custom").isSome then none else some none := by
    rw [← option?_getD_null]
    exact customOf_inDocument document
  rw [Declaration.compileEntry_of_no_type key rfl stillUntyped, toOption_bind, custom, checked,
    compileEntries_appendMeta fun name mem => isMetaKey_of_mem either mem]
  split
  · rfl
  · rw [Option.bind_some, toOption_bind]
    simp only [nestedRule, required]
    cases compileEntries true read <;> rfl

/-! ## Compiling what was read -/

/-- A name is read as itself, if it is a keyword, or as the token of a type. -/
theorem typeToken_cases {name : String} {token : Value}
    (outcome : typeToken name key = .ok token) :
    (token = .text name ∧ name ∈ typeKeywords) ∨ ∃ t, token = .callable (.token t) := by
  rw [typeToken] at outcome
  split at outcome
  next known =>
    cases outcome
    exact .inl ⟨rfl, (Declaration.keywordType?_isSome_iff name).mp known⟩
  next =>
    split at outcome
    · cases outcome
      exact .inr ⟨_, rfl⟩
    · cases outcome

/-- An entry that is the name of a type asks for a property of that type. -/
theorem typeToken_compileEntry (name : String) (key : Value) :
    (typeToken name key >>= compileEntry key).toOption =
      (namedTypes.lookup name).map (requiredRule key) := by
  rw [← typeToken_compile name key, ← toOption_map]
  cases outcome : typeToken name key with
  | error e => rfl
  | ok token =>
      have bare : Declaration.declared? token = none := by
        rcases typeToken_cases outcome with ⟨rfl, -⟩ | ⟨t, rfl⟩ <;> rfl
      exact congrArg Except.toOption (Declaration.compileEntry_of_bare key bare)

/-- An entry that is a list asks for an array with its only item type. -/
theorem readTypes_compileEntry {items : List Value} (key : Value)
    (each : ∀ item ∈ items, (readType order key item >>= compileType key).toOption = typeOf? item) :
    (readEntry order key (.list items) >>= compileEntry key).toOption =
      (arrayOf? items).map (requiredRule key) := by
  rw [← readTypes_compile each, ← toOption_map, readEntry]
  cases readTypes order key items with
  | error e => rfl
  | ok types => rfl

/-- An entry that is a mapping with a type asks for a property of that type with its
options. -/
theorem readEntry_compile_of_type {entries : Entries} {token : Value} (key : Value)
    (document : EntriesInDocument entries) (typed : entries.get? typeKey = some token)
    (type : (readType order key token >>= compileType key).toOption = typeOf? token) :
    (readEntry order key (.object entries) >>= compileEntry key).toOption =
      ruleOf? key (.object entries) := by
  calc (readEntry order key (.object entries) >>= compileEntry key).toOption
      = (readType order key token).toOption.bind fun type =>
          (readPattern key (entries.put typeKey type) >>= fun options =>
            compileEntry key (.object options)).toOption := by
        rw [readEntry_of_type key typed, bind_assoc, toOption_bind]
        refine congrArg _ (funext fun type => ?_)
        rw [bind_assoc]
        rfl
    _ = (typeOf? token).bind fun type => ruleWith? key type entries := by
        rw [← type, toOption_bind, Option.bind_assoc]
        simp only [readPattern_compile document]
    _ = ruleOf? key (.object entries) := by
        rw [ruleOf?, typeIn?_eq, typed, Option.map_some]

/-- An entry that is a mapping without a type asks for the record that it declares. -/
theorem readEntry_compile_of_no_type {entries : Entries} (key : Value)
    (either : order.Perm defaultMetaOrder) (document : EntriesInDocument entries)
    (untyped : entries.get? typeKey = none)
    (inner : (readEntries order true entries [] >>= compileEntries true).toOption =
      rulesOf? true entries) :
    (readEntry order key (.object entries) >>= compileEntry key).toOption =
      ruleOf? key (.object entries) := by
  rw [readEntry_of_no_type key untyped, ruleOf?, typeIn?_eq, untyped, Option.map_none, ← inner]
  cases outcome : readEntries order true entries [] with
  | error e => simp [bind, Except.bind, Except.toOption]
  | ok read => exact nested_compile either document untyped outcome

/-- It makes no difference whether an entry is compiled before or after the later ones are
read. -/
theorem readEntries_compile_cons {inner : Bool} (kept : ¬ (inner && isMetaKey key) = true)
    (entry : Except SchemaError Value) (others : Except SchemaError Entries) :
    ((do return (key, ← entry) :: (← others) : Except SchemaError Entries) >>=
        compileEntries inner).toOption =
      (entry >>= compileEntry key).toOption.bind fun rule =>
        (others >>= compileEntries inner).toOption.map (rule :: ·) := by
  cases entry with
  | error e => rfl
  | ok entry =>
      cases others with
      | error e => exact (Option.bind_fun_none _).symm
      | ok others =>
          simp only [bind, Except.bind, pure, Except.pure, compileEntries, if_neg kept]
          cases compileEntry key entry with
          | error e => rfl
          | ok rule => cases compileEntries inner others <;> rfl

mutual

/-- Entries are read and compiled to the rules that they declare. -/
theorem readEntries_compile (either : order.Perm defaultMetaOrder) (inner : Bool)
    (entries : List (Value × Value)) (keyed : Entries.TextKeyed entries)
    (document : EntriesInDocument entries) :
    (readEntries order inner entries [] >>= compileEntries inner).toOption =
      rulesOf? inner entries := by
  match entries with
  | [] => rfl
  | (key, v) :: rest =>
      obtain ⟨name, rfl⟩ := keyed.texts _ List.mem_cons_self
      have first := readEntry_compile either (.text name) v document.1
      have others := readEntries_compile either inner rest keyed.tail document.2
      rw [readEntries_cons inner keyed, rulesOf?]
      split
      · exact others
      next kept =>
        rw [← first, ← others]
        exact readEntries_compile_cons kept _ _
termination_by structural entries

/-- The entry of a property is read and compiled to the rule that it declares. -/
theorem readEntry_compile (either : order.Perm defaultMetaOrder) (key v : Value)
    (document : v.IsDocument) :
    (readEntry order key v >>= compileEntry key).toOption = ruleOf? key v := by
  cases v with
  | object entries =>
      cases typed : Entries.get? entries typeKey with
      | some token =>
          exact readEntry_compile_of_type key document.2 typed
            (readTypeIn_compile either key entries document.2 token typed)
      | none =>
          exact readEntry_compile_of_no_type key either document.2 typed
            (readEntries_compile either true entries document.1 document.2)
  | text name => exact typeToken_compileEntry name key
  | list items => exact readTypes_compileEntry key (readItems_compile either key items document)
  | _ => first | rfl | cases document
termination_by structural v

/-- The type among some options is read and compiled to the one that it declares. -/
theorem readTypeIn_compile (either : order.Perm defaultMetaOrder) (key : Value)
    (options : List (Value × Value)) (document : EntriesInDocument options) :
    ∀ token, Entries.get? options typeKey = some token →
      (readType order key token >>= compileType key).toOption = typeOf? token := by
  match options with
  | [] =>
      intro token typed
      cases typed
  | (k, v) :: rest =>
      intro token typed
      rw [Entries.get?] at typed
      split at typed
      · cases typed
        exact readType_compile either key v document.1
      · exact readTypeIn_compile either key rest document.2 token typed
termination_by structural options

/-- A type is read and compiled to the one that it declares. -/
theorem readType_compile (either : order.Perm defaultMetaOrder) (key v : Value)
    (document : v.IsDocument) :
    (readType order key v >>= compileType key).toOption = typeOf? v := by
  cases v with
  | object entries =>
      have inner := readEntries_compile either false entries document.1 document.2
      rw [readType, typeOf?, ← inner]
      cases readEntries order false entries [] with
      | error e => rfl
      | ok read =>
          refine (congrArg Except.toOption
            (Declaration.compileType_of_declared key (v := .object read) rfl)).trans ?_
          simp only [bind, Except.bind]
          cases compileEntries false read <;> rfl
  | text name => exact typeToken_compile name key
  | list items =>
      rw [readType, typeOf?, ← readTypes_compile (readItems_compile either key items document)]
      cases readTypes order key items <;> rfl
  | _ => first | rfl | cases document
termination_by structural v

/-- Item types are read and compiled to the ones that they declare. -/
theorem readItems_compile (either : order.Perm defaultMetaOrder) (key : Value)
    (items : List Value) (document : ItemsInDocument items) :
    ∀ item ∈ items, (readType order key item >>= compileType key).toOption = typeOf? item := by
  match items with
  | [] => exact fun item mem => absurd mem List.not_mem_nil
  | v :: rest =>
      rw [List.forall_mem_cons]
      exact ⟨readType_compile either key v document.1,
        readItems_compile either key rest document.2⟩
termination_by structural items

end

/-! ## Nothing is left to translate -/

mutual

/-- Types in which no name is left that the compiler does not know. -/
inductive TypeRead : Value → Prop
  | keyword {word : String} : word ∈ typeKeywords → TypeRead (.text word)
  | items {items : List Value} : (∀ item ∈ items, TypeRead item) → TypeRead (.list items)
  | record {entries : Entries} : (∀ e ∈ entries, EntryRead e.2) → TypeRead (.object entries)
  | other {v : Value} :
      (∀ word, v ≠ .text word) → v.items? = none → v.isMapping = false → TypeRead v

/-- Entries of properties in which no such name and no text of a pattern is left. -/
inductive EntryRead : Value → Prop
  | nested {entries : Entries} :
      entries.get? typeKey = none →
      (∀ e ∈ entries, isMetaKey e.1 = false → EntryRead e.2) → EntryRead (.object entries)
  | rule {type : Value} {options : Entries} :
      options.get? typeKey = some type → TypeRead type →
      (∀ source, options.get? (.text "regex") ≠ some (.text source)) → EntryRead (.object options)
  | bare {v : Value} : v.isMapping = false → TypeRead v → EntryRead v

end

theorem typeToken_typeRead {name : String} {token : Value}
    (outcome : typeToken name key = .ok token) : TypeRead token := by
  rcases typeToken_cases outcome with ⟨rfl, known⟩ | ⟨t, rfl⟩
  · exact .keyword known
  · exact .other (by simp) rfl rfl

/-- The type that was read stays in its place, and no text of a pattern is left. -/
theorem readPattern_entryRead {entries options : Entries} {type : Value}
    (typed : entries.get? typeKey = some type) (read : TypeRead type)
    (outcome : readPattern key entries = .ok options) : EntryRead (.object options) := by
  rw [readPattern] at outcome
  split at outcome
  next source there =>
    split at outcome
    next p compiled =>
      cases outcome
      refine .rule ((get?_put_text (by simp) _ _).trans typed) read fun source => ?_
      rw [get?_put_text_self]
      simp
    next => cases outcome
    next => cases outcome
    next => cases outcome
  next noText =>
    cases outcome
    exact .rule typed read noText

mutual

/-- Entries are read without a name being left in them. -/
theorem readEntries_entryRead (either : order.Perm defaultMetaOrder) (inner : Bool)
    (entries : List (Value × Value)) (keyed : Entries.TextKeyed entries)
    (document : EntriesInDocument entries) :
    ∀ read, readEntries order inner entries [] = .ok read →
      ∀ e ∈ read, (inner && isMetaKey e.1) = false → EntryRead e.2 := by
  match entries with
  | [] =>
      intro read outcome
      cases outcome
      simp
  | (key, v) :: rest =>
      intro read outcome
      obtain ⟨name, rfl⟩ := keyed.texts _ List.mem_cons_self
      have first := readEntry_entryRead either (.text name) v document.1
      have others := readEntries_entryRead either inner rest keyed.tail document.2
      rw [readEntries_cons inner keyed] at outcome
      split at outcome
      · exact others read outcome
      · obtain ⟨entry, own, outcome⟩ := bind_eq_ok.mp outcome
        obtain ⟨later, rests, outcome⟩ := bind_eq_ok.mp outcome
        cases outcome
        rw [List.forall_mem_cons]
        exact ⟨fun _ => first entry own, others later rests⟩
termination_by structural entries

/-- The entry of a property is read without a name being left in it. -/
theorem readEntry_entryRead (either : order.Perm defaultMetaOrder) (key v : Value)
    (document : v.IsDocument) :
    ∀ entry, readEntry order key v = .ok entry → EntryRead entry := by
  intro entry outcome
  cases v with
  | object entries =>
      cases typed : Entries.get? entries typeKey with
      | some token =>
          rw [readEntry_of_type key typed] at outcome
          obtain ⟨type, read, outcome⟩ := bind_eq_ok.mp outcome
          obtain ⟨options, compiled, outcome⟩ := bind_eq_ok.mp outcome
          cases outcome
          have own := readTypeIn_typeRead either key entries document.2 token typed type read
          exact readPattern_entryRead (get?_put_text_self _ _ _) own compiled
      | none =>
          rw [readEntry_of_no_type key typed] at outcome
          obtain ⟨read, inner, outcome⟩ := bind_eq_ok.mp outcome
          cases outcome
          have own := readEntries_entryRead either true entries document.1 document.2 read inner
          have appended := (appendMeta_read either entries (nested_keys typed inner).1).1
          refine .nested (nested_untyped either typed inner) ?_
          intro e mem kept
          rw [appended] at mem
          rcases List.mem_append.mp mem with there | about
          · exact own e there kept
          · rw [isMetaKey_of_mem_metaEntries either about] at kept
            cases kept
  | text name =>
      have bare : entry.isMapping = false := by
        rcases typeToken_cases outcome with ⟨rfl, -⟩ | ⟨t, rfl⟩ <;> rfl
      exact .bare bare (typeToken_typeRead outcome)
  | list items =>
      rw [readEntry] at outcome
      obtain ⟨types, each, outcome⟩ := bind_eq_ok.mp outcome
      cases outcome
      exact .bare rfl (.items (readTypes_typeRead either key items document types each))
  | null | bool | int | float | date | moment =>
      cases outcome
      exact .bare rfl (.other (by simp) rfl rfl)
  | _ => cases document
termination_by structural v

/-- The type among some options is read without a name being left in it. -/
theorem readTypeIn_typeRead (either : order.Perm defaultMetaOrder) (key : Value)
    (options : List (Value × Value)) (document : EntriesInDocument options) :
    ∀ token, Entries.get? options typeKey = some token →
      ∀ type, readType order key token = .ok type → TypeRead type := by
  match options with
  | [] =>
      intro token typed
      cases typed
  | (k, v) :: rest =>
      intro token typed
      rw [Entries.get?] at typed
      split at typed
      · cases typed
        exact readType_typeRead either key v document.1
      · exact readTypeIn_typeRead either key rest document.2 token typed
termination_by structural options

/-- A type is read without a name being left in it. -/
theorem readType_typeRead (either : order.Perm defaultMetaOrder) (key v : Value)
    (document : v.IsDocument) :
    ∀ type, readType order key v = .ok type → TypeRead type := by
  intro type outcome
  cases v with
  | object entries =>
      rw [readType] at outcome
      obtain ⟨read, inner, outcome⟩ := bind_eq_ok.mp outcome
      cases outcome
      have own := readEntries_entryRead either false entries document.1 document.2 read inner
      exact .record fun e mem => own e mem rfl
  | text name => exact typeToken_typeRead outcome
  | list items =>
      rw [readType] at outcome
      obtain ⟨types, each, outcome⟩ := bind_eq_ok.mp outcome
      cases outcome
      exact .items (readTypes_typeRead either key items document types each)
  | null | bool | int | float | date | moment =>
      cases outcome
      exact .other (by simp) rfl rfl
  | _ => cases document
termination_by structural v

/-- Item types are read without a name being left in them. -/
theorem readTypes_typeRead (either : order.Perm defaultMetaOrder) (key : Value)
    (items : List Value) (document : ItemsInDocument items) :
    ∀ types, readTypes order key items = .ok types → ∀ type ∈ types, TypeRead type := by
  intro types outcome
  match items with
  | [] =>
      cases outcome
      simp
  | v :: rest =>
      rw [readTypes] at outcome
      obtain ⟨type, first, outcome⟩ := bind_eq_ok.mp outcome
      obtain ⟨later, others, outcome⟩ := bind_eq_ok.mp outcome
      cases outcome
      rw [List.forall_mem_cons]
      exact ⟨readType_typeRead either key v document.1 type first,
        readTypes_typeRead either key rest document.2 later others⟩
termination_by structural items

end

/-! ## The schema of a document -/

/-- Reading and compiling a mapping gives the schema that it declares. -/
theorem parse_compile_toOption (either : order.Perm defaultMetaOrder) {raw : Value}
    (document : raw.IsDocument) (strict : Bool) :
    (parse order raw >>= fun read => Declaration.compile (.object read) strict).toOption =
      schemaOf? raw strict := by
  cases raw with
  | object entries =>
      have parsed : parse order (.object entries) = readEntries order false entries [] := rfl
      rw [parsed, schemaOf?, ← readEntries_compile either false entries document.1 document.2]
      cases readEntries order false entries [] with
      | error e => rfl
      | ok read =>
          rw [← toOption_map]
          exact congrArg Except.toOption
            (Declaration.compile_of_declared (v := .object read) strict rfl)
  | _ => first | rfl | cases document

/-- A document is read and compiled exactly if it is well formed, to the schema that is read
off it in one pass, whichever key about a property is written first. What lies between has
no names and no texts of patterns where the compiler expects types and patterns. -/
theorem parse_compile_declares {order : List String} {raw : Value} (strict : Bool)
    (document : raw.IsDocument) (either : order.Perm defaultMetaOrder) :
    ((∃ s, (parse order raw >>= fun read => Declaration.compile (.object read) strict) = .ok s) ↔
        WellFormed raw) ∧
      (∀ s, (parse order raw >>= fun read => Declaration.compile (.object read) strict) = .ok s ↔
        schemaOf? raw strict = some s) ∧
      ∀ read, parse order raw = .ok read → ∀ e ∈ read, EntryRead e.2 := by
  have declares (s : Schema) :
      (parse order raw >>= fun read => Declaration.compile (.object read) strict) = .ok s ↔
        schemaOf? raw strict = some s := by
    rw [← parse_compile_toOption either document strict]
    cases parse order raw >>= fun read => Declaration.compile (.object read) strict <;>
      simp [Except.toOption]
  refine ⟨?_, declares, fun read outcome => ?_⟩
  · simp only [declares, ← Option.isSome_iff_exists, schemaOf?_isSome_iff]
  · cases raw with
    | object entries =>
        exact fun e mem =>
          readEntries_entryRead either false entries document.1 document.2 read outcome e mem rfl
    | _ => first | cases outcome | cases document

/-- A document in which names of types, and of the keys about a property, stand at places
of types, as names of properties, among accepted values and as a default. -/
def shipment : Value :=
  .object [
    (.text "string", .text "number"),
    (.text "boxes", .object [
      (.text "type",
        .list [.object [(.text "id", .text "uuid/v4"), (.text "type", .text "array")]]),
      (.text "min", .int 1)]),
    (.text "place", .object [
      (.text "required", .bool true),
      (.text "city", .object [
        (.text "type", .text "string"), (.text "regex", .text "a"),
        (.text "enum", .list [.text "string", .text "array"]), (.text "default", .text "array")]),
      (.text "date", .object [(.text "custom", .null), (.text "day", .list [.text "date"])])])]

theorem parse_compile_declares_shipment :
    shipment.IsDocument ∧ ["custom", "required"].Perm defaultMetaOrder ∧
      (∃ s, (parse ["custom", "required"] shipment >>= fun read =>
        Declaration.compile (.object read) true) = .ok s) ∧ WellFormed shipment := by
  have document : shipment.IsDocument := by
    simp [shipment, Value.IsDocument, ItemsInDocument, EntriesInDocument,
      Entries.textKeyed_cons_iff, Entries.textKeyed_nil]
  have either : ["custom", "required"].Perm defaultMetaOrder := .swap _ _ _
  have declares := parse_compile_declares true document either
  have wellFormed : WellFormed shipment := by
    rw [← schemaOf?_isSome_iff shipment true]
    rfl
  exact ⟨document, either, declares.1.mpr wellFormed, wellFormed⟩

end DataContract.Document
