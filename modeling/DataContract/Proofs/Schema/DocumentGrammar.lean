/-
# The grammar of declarations in documents

A document holds no type tokens, patterns or functions, only what can be written down.
Which documents declare a schema is said here as an inductive grammar, in which types have
names and patterns are texts. Beside it stands the schema that a document declares, read
off the document in one pass: nothing is translated first and compiled later. The reading
succeeds on exactly the documents of the grammar.

Reading translates names where the grammar has a type, and nowhere else: what an entry of
a rule other than its type says is taken as it is.
-/

import DataContract.Proofs.Schema.Grammar

set_option autoImplicit false

namespace DataContract

/-- Entries whose keys are texts, each written once. -/
structure Entries.TextKeyed (entries : Entries) : Prop where
  texts : ∀ e ∈ entries, ∃ name, e.1 = .text name
  apart : (entries.map (·.1)).Nodup

theorem Value.text_equal_text (a b : String) : (Value.text a).equal (.text b) = true ↔ a = b := by
  rw [Value.equal, beq_iff_eq]

theorem Entries.TextKeyed.tail {e : Value × Value} {rest : Entries}
    (keyed : Entries.TextKeyed (e :: rest)) : Entries.TextKeyed rest where
  texts := fun e mem => keyed.texts e (List.mem_cons_of_mem _ mem)
  apart := (List.nodup_cons.mp keyed.apart).2

theorem Entries.textKeyed_nil : Entries.TextKeyed [] where
  texts := fun _ mem => absurd mem List.not_mem_nil
  apart := List.nodup_nil

theorem Entries.textKeyed_cons_iff (name : String) (v : Value) (rest : Entries) :
    Entries.TextKeyed ((.text name, v) :: rest) ↔
      (∀ e ∈ rest, e.1 ≠ .text name) ∧ Entries.TextKeyed rest := by
  constructor
  · intro keyed
    refine ⟨fun e mem same => ?_, keyed.tail⟩
    exact (List.nodup_cons.mp keyed.apart).1 (List.mem_map.mpr ⟨e, mem, same⟩)
  · rintro ⟨apart, keyed⟩
    refine ⟨List.forall_mem_cons.mpr ⟨⟨name, rfl⟩, keyed.texts⟩, ?_⟩
    refine List.nodup_cons.mpr ⟨fun mem => ?_, keyed.apart⟩
    obtain ⟨e, own, same⟩ := List.mem_map.mp mem
    exact apart e own same

/-- The first key is none of the others. -/
theorem Entries.TextKeyed.head_ne {e : Value × Value} {rest : Entries}
    (keyed : Entries.TextKeyed (e :: rest)) : ∀ other ∈ rest, e.1.equal other.1 = false := by
  intro other mem
  obtain ⟨a, own⟩ := keyed.texts e List.mem_cons_self
  obtain ⟨b, later⟩ := keyed.texts other (List.mem_cons_of_mem _ mem)
  rw [own, later, ← Bool.not_eq_true, Value.text_equal_text]
  rintro rfl
  exact (List.nodup_cons.mp keyed.apart).1 (List.mem_map.mpr ⟨other, mem, later.trans own.symm⟩)

mutual

/-- What a document can hold: what has no parts, lists, and mappings from names. -/
def Value.IsDocument : Value → Prop
  | .null => True
  | .bool _ => True
  | .int _ => True
  | .float _ => True
  | .text _ => True
  | .date _ => True
  | .moment _ => True
  | .list items => ItemsInDocument items
  | .object entries => Entries.TextKeyed entries ∧ EntriesInDocument entries
  | _ => False
  termination_by structural v => v

/-- Items that a document can hold. -/
def ItemsInDocument : List Value → Prop
  | [] => True
  | v :: rest => v.IsDocument ∧ ItemsInDocument rest
  termination_by structural items => items

/-- Entries whose values a document can hold. -/
def EntriesInDocument : List (Value × Value) → Prop
  | [] => True
  | (_, v) :: rest => v.IsDocument ∧ EntriesInDocument rest
  termination_by structural entries => entries

end

namespace Document

open Declaration (typeKey isMetaKey isTextType)

/-- The names of types and what they stand for. -/
def namedTypes : List (String × TypeSpec) :=
  [("string", .scalar .text), ("number", .scalar .number), ("integer", .scalar .number),
    ("boolean", .scalar .boolean), ("object", .scalar .object), ("function", .scalar .function),
    ("date", .scalar .date), ("array", .array none),
    ("uuid/v1", .scalar (.uuid .timeBased)), ("uuid/v4", .scalar (.uuid .random))]

/-- The name of texts, the only type that has patterns and accepted values. -/
def textName : Value := .text "string"

/-- What the options beside the type of a property have to be. Nothing in a document can
be called, so there is no custom validator. -/
structure AdmitsOptions (token : Value) (options : Entries) : Prop where
  pattern : ∀ v, options.option? "regex" = some v →
    token = textName ∧ ∃ source p, v = .text source ∧ Pattern.compile source {} = .ok p
  choices : ∀ v, options.option? "enum" = some v → token = textName ∧ ∃ items, v = .list items
  custom : options.option? "custom" = none
  bounds : ∀ (bound : Bound) (v : Value), options.option? bound.label = some v → v.isNumber = true

mutual

/-- The types of documents: names, arrays of at most one item type, and mappings that
declare a record. -/
inductive IsType : Value → Prop
  | named {name : String} {type : TypeSpec} : (name, type) ∈ namedTypes → IsType (.text name)
  | anyItems : IsType (.list [])
  | items {item : Value} : IsType item → IsType (.list [item])
  | record {entries : Entries} : (∀ e ∈ entries, IsEntry e.2) → IsType (.object entries)

/-- The entries of properties: mappings without a type, which declare a record beside
the keys about the property, mappings with a type, and types alone. -/
inductive IsEntry : Value → Prop
  | nested {entries : Entries} :
      entries.get? typeKey = none → entries.option? "custom" = none →
      (∀ e ∈ entries, isMetaKey e.1 = false → IsEntry e.2) → IsEntry (.object entries)
  | rule {token : Value} {options : Entries} :
      options.get? typeKey = some token → IsType token → AdmitsOptions token options →
      IsEntry (.object options)
  | bare {v : Value} : v.isMapping = false → IsType v → IsEntry v

end

/-- A document that declares a schema: a mapping from names to entries. -/
inductive WellFormed : Value → Prop
  | entries {entries : Entries} : (∀ e ∈ entries, IsEntry e.2) → WellFormed (.object entries)

/-! ## The declared schema -/

/-- The pattern among some options, if it is none or the text of one. -/
def patternIn? (options : Entries) : Option (Option Pattern) :=
  match options.option? "regex" with
  | none => some none
  | some (.text source) => (Pattern.compile source {}).toOption.map some
  | some _ => none

/-- The accepted values among some options, if they are none or a list. -/
def choicesIn? (options : Entries) : Option (Option (List Value)) :=
  match options.option? "enum" with
  | none => some none
  | some (.list items) => some (some items)
  | some _ => none

/-- A bound among some options, if it is none or a number. -/
def boundIn? (bound : Bound) (options : Entries) : Option (Option Number) :=
  match options.option? bound.label with
  | none => some none
  | some v => v.number?.map some

/-- The rule of a type with options, all of which but the pattern are taken as they are. -/
def ruleWith? (key : Value) (type : TypeSpec) (options : Entries) : Option Rule :=
  let onTexts := (options.option? "regex").isSome || (options.option? "enum").isSome
  if (options.option? "custom").isSome || (onTexts && !isTextType type) then none
  else do
    let pattern ← patternIn? options
    let choices ← choicesIn? options
    let min ← boundIn? .min options
    let max ← boundIn? .max options
    return { Rule.ofType key type with
      pattern, choices, min, max
      required := (options.get? (.text "required")).any Value.truthy
      default := options.option? "default"
      message := options.option? "message" }

mutual

/-- The type that a document declares. -/
def typeOf? : Value → Option TypeSpec
  | .text name => namedTypes.lookup name
  | .list items => arrayOf? items
  | .object entries => (rulesOf? false entries).map fun rules => .nested ⟨rules, false⟩
  | _ => none
  termination_by structural v => v

/-- The type of an array that is declared by the list that holds its item type. -/
def arrayOf? : List Value → Option TypeSpec
  | [] => some (.array none)
  | [item] => (typeOf? item).map fun type => .array (some type)
  | _ => none
  termination_by structural items => items

/-- The rules that entries declare in their order; in a nested declaration the keys that
speak about its property are passed over. -/
def rulesOf? (inner : Bool) : List (Value × Value) → Option (List Rule)
  | [] => some []
  | (key, entry) :: rest =>
    if inner && isMetaKey key then rulesOf? inner rest
    else (ruleOf? key entry).bind fun rule => (rulesOf? inner rest).map (rule :: ·)
  termination_by structural entries => entries

/-- The rule that the entry of one property declares. -/
def ruleOf? (key : Value) : Value → Option Rule
  | .object entries =>
    match typeIn? entries with
    | some type => type.bind fun type => ruleWith? key type entries
    | none =>
      if (Entries.option? entries "custom").isSome then none
      else (rulesOf? true entries).map fun rules =>
        { Rule.ofType key (.nested ⟨rules, false⟩) with
          required := (Entries.get? entries (.text "required")).any Value.truthy }
  | .text name => (namedTypes.lookup name).map fun type =>
    { Rule.ofType key type with required := true }
  | .list items => (arrayOf? items).map fun type =>
    { Rule.ofType key type with required := true }
  | _ => none
  termination_by structural v => v

/-- The type among the options of a property, if there is one to be read. -/
def typeIn? : List (Value × Value) → Option (Option TypeSpec)
  | [] => none
  | (k, v) :: rest => if k.equal typeKey then some (typeOf? v) else typeIn? rest
  termination_by structural entries => entries

end

/-- The schema that a document declares. -/
def schemaOf? (raw : Value) (strict : Bool) : Option Schema :=
  match raw with
  | .object entries => (rulesOf? false entries).map fun rules => ⟨rules, !strict⟩
  | _ => none

/-! ### Options -/

theorem patternIn?_isSome_iff (options : Entries) :
    (patternIn? options).isSome = true ↔
      ∀ v, options.option? "regex" = some v →
        ∃ source p, v = .text source ∧ Pattern.compile source {} = .ok p := by
  rw [patternIn?]
  cases options.option? "regex" with
  | none => simp
  | some v =>
      cases v with
      | text source =>
          cases compiled : Pattern.compile source {} <;> simp [compiled, Except.toOption]
      | _ => simp

theorem choicesIn?_isSome_iff (options : Entries) :
    (choicesIn? options).isSome = true ↔
      ∀ v, options.option? "enum" = some v → ∃ items, v = .list items := by
  rw [choicesIn?]
  cases options.option? "enum" with
  | none => simp
  | some v => cases v <;> simp

theorem boundIn?_isSome_iff (bound : Bound) (options : Entries) :
    (boundIn? bound options).isSome = true ↔
      ∀ v, options.option? bound.label = some v → v.isNumber = true := by
  rw [boundIn?]
  cases options.option? bound.label with
  | none => simp
  | some v => simp [Value.isNumber]

/-- The options of a rule are read exactly when each of them is what it has to be; that a
pattern and accepted values need texts is a condition on the type. -/
theorem ruleWith?_isSome_iff (key token : Value) {type : TypeSpec} (options : Entries)
    (resolved : type = .scalar .text ↔ token = textName) :
    (ruleWith? key type options).isSome = true ↔ AdmitsOptions token options := by
  have reads : (ruleWith? key type options).isSome = true ↔
      options.option? "custom" = none ∧
      ((∀ v, options.option? "regex" = some v → type = .scalar .text) ∧
        ∀ v, options.option? "enum" = some v → type = .scalar .text) ∧
      (patternIn? options).isSome = true ∧ (choicesIn? options).isSome = true ∧
      (boundIn? .min options).isSome = true ∧ (boundIn? .max options).isSome = true := by
    rw [← Declaration.textOnly_iff, ruleWith?]
    cases options.option? "custom" with
    | some v => simp
    | none =>
        simp only [Option.isSome_none, Bool.false_or, Bool.and_eq_true, true_and]
        split
        next refused => simp [refused]
        next accepted =>
          rw [iff_true_intro accepted, true_and]
          simp [Option.isSome_bind, Option.any_eq_true, Option.isSome_iff_exists, bind, pure]
  rw [reads, patternIn?_isSome_iff, choicesIn?_isSome_iff, boundIn?_isSome_iff,
    boundIn?_isSome_iff, resolved]
  constructor
  · intro checked
    obtain ⟨custom, ⟨regexText, enumText⟩, pattern, choices, min, max⟩ := checked
    refine ⟨fun v found => ⟨regexText v found, pattern v found⟩,
      fun v found => ⟨enumText v found, choices v found⟩, custom, fun bound => ?_⟩
    cases bound with
    | min => exact min
    | max => exact max
  · intro admitted
    exact ⟨admitted.custom,
      ⟨fun v found => (admitted.pattern v found).1, fun v found => (admitted.choices v found).1⟩,
      fun v found => (admitted.pattern v found).2, fun v found => (admitted.choices v found).2,
      admitted.bounds .min, admitted.bounds .max⟩

/-! ### Types and entries -/

theorem namedTypes_isSome_iff (name : String) :
    (namedTypes.lookup name).isSome = true ↔ IsType (.text name) := by
  rw [List.lookup_isSome_iff]
  constructor
  · intro known
    obtain ⟨⟨own, type⟩, mem, same⟩ := known
    obtain rfl := beq_iff_eq.mp same
    exact .named mem
  · intro isType
    cases isType with
    | named mem => exact ⟨_, mem, beq_self_eq_true name⟩

/-- Only the name of texts stands for the type of texts. -/
theorem typeOf?_eq_text_iff (token : Value) :
    typeOf? token = some (.scalar .text) ↔ token = textName := by
  cases token with
  | text name =>
      rw [typeOf?, textName, Value.text.injEq]
      constructor
      · intro declared
        obtain ⟨before, after, own, -⟩ := List.lookup_eq_some_iff.mp declared
        have mem : (name, TypeSpec.scalar .text) ∈ namedTypes := by simp [own]
        simpa [namedTypes] using mem
      · rintro rfl
        rfl
  | list items =>
      simp only [typeOf?, textName]
      rcases items with _ | ⟨item, _ | ⟨second, others⟩⟩ <;> simp [arrayOf?]
  | object entries => simp [typeOf?, textName]
  | _ => simp [typeOf?, textName]

/-- The type among some options is the one declared under the type key. -/
theorem typeIn?_eq (options : Entries) : typeIn? options = (options.get? typeKey).map typeOf? := by
  induction options with
  | nil => rfl
  | cons e rest ih =>
      obtain ⟨k, v⟩ := e
      simp only [typeIn?, Entries.get?]
      split
      · rfl
      · exact ih

theorem isEntry_iff_of_type {token : Value} {options : Entries}
    (typed : options.get? typeKey = some token) :
    IsEntry (.object options) ↔ IsType token ∧ AdmitsOptions token options := by
  constructor
  · intro entry
    cases entry with
    | nested untyped => cases untyped.symm.trans typed
    | rule found isType admitted =>
        cases found.symm.trans typed
        exact ⟨isType, admitted⟩
    | bare noMapping => cases noMapping
  · intro checked
    obtain ⟨isType, admitted⟩ := checked
    exact .rule typed isType admitted

theorem isEntry_iff_of_no_type {entries : Entries} (untyped : entries.get? typeKey = none) :
    IsEntry (.object entries) ↔
      entries.option? "custom" = none ∧
        ∀ e ∈ entries, isMetaKey e.1 = false → IsEntry e.2 := by
  constructor
  · intro entry
    cases entry with
    | nested _ custom inner => exact ⟨custom, inner⟩
    | rule found => cases found.symm.trans untyped
    | bare noMapping => cases noMapping
  · intro checked
    obtain ⟨custom, inner⟩ := checked
    exact .nested untyped custom inner

theorem isEntry_iff_of_bare {v : Value} (bare : v.isMapping = false) : IsEntry v ↔ IsType v := by
  constructor
  · intro entry
    cases entry with
    | nested => cases bare
    | rule => cases bare
    | bare _ isType => exact isType
  · exact .bare bare

/-- The entry of a property that is a mapping declares a rule exactly if it is one of the
grammar, provided that its parts are. -/
theorem ruleOf?_isSome_iff_of_object (key : Value) {entries : Entries}
    (types : ∀ token, entries.get? typeKey = some token →
      ((typeOf? token).isSome = true ↔ IsType token))
    (own : (rulesOf? true entries).isSome = true ↔
      ∀ e ∈ entries, (true && isMetaKey e.1) = false → IsEntry e.2) :
    (ruleOf? key (.object entries)).isSome = true ↔ IsEntry (.object entries) := by
  rw [ruleOf?, typeIn?_eq]
  cases typed : entries.get? typeKey with
  | some token =>
      rw [isEntry_iff_of_type typed, ← types token typed, Option.map_some]
      cases declared : typeOf? token with
      | none => simp
      | some type =>
          have resolved : type = .scalar .text ↔ token = textName := by
            rw [← typeOf?_eq_text_iff, declared, Option.some.injEq]
          simp [ruleWith?_isSome_iff key token entries resolved]
  | none =>
      rw [isEntry_iff_of_no_type typed, Option.map_none]
      simp only [Bool.true_and] at own
      rw [← own]
      cases entries.option? "custom" <;> simp

mutual

/-- Entries declare rules exactly if each one that is not passed over is one of the
grammar. -/
theorem rulesOf?_isSome_iff (inner : Bool) (entries : List (Value × Value)) :
    (rulesOf? inner entries).isSome = true ↔
      ∀ e ∈ entries, (inner && isMetaKey e.1) = false → IsEntry e.2 := by
  match entries with
  | [] => simp [rulesOf?]
  | (key, entry) :: rest =>
      have first := ruleOf?_isSome_iff key entry
      have others := rulesOf?_isSome_iff inner rest
      rw [rulesOf?, List.forall_mem_cons, ← others, ← first]
      split
      next passed => simp [passed]
      next kept =>
        rw [Bool.not_eq_true] at kept
        cases ruleOf? key entry <;> simp [kept]
termination_by structural entries

/-- The entry of a property declares a rule exactly if it is one of the grammar. -/
theorem ruleOf?_isSome_iff (key v : Value) : (ruleOf? key v).isSome = true ↔ IsEntry v := by
  cases v with
  | object entries =>
      exact ruleOf?_isSome_iff_of_object key (typeIn?_isSome_iff entries)
        (rulesOf?_isSome_iff true entries)
  | text name =>
      rw [isEntry_iff_of_bare rfl, ruleOf?, Option.isSome_map, namedTypes_isSome_iff]
  | list items =>
      rw [isEntry_iff_of_bare rfl, ruleOf?, Option.isSome_map, arrayOf?_isSome_iff]
  | _ =>
      simp only [ruleOf?, Option.isSome_none, Bool.false_eq_true, false_iff]
      intro entry
      cases entry with
      | bare _ isType => cases isType
termination_by structural v

/-- The type among some options is declared exactly if it is one of the grammar. -/
theorem typeIn?_isSome_iff (options : List (Value × Value)) :
    ∀ token, Entries.get? options typeKey = some token →
      ((typeOf? token).isSome = true ↔ IsType token) := by
  match options with
  | [] =>
      intro token typed
      cases typed
  | (k, v) :: rest =>
      intro token typed
      rw [Entries.get?] at typed
      split at typed
      · cases typed
        exact typeOf?_isSome_iff v
      · exact typeIn?_isSome_iff rest token typed
termination_by structural options

/-- A type is declared exactly if it is one of the grammar. -/
theorem typeOf?_isSome_iff (v : Value) : (typeOf? v).isSome = true ↔ IsType v := by
  cases v with
  | text name => rw [typeOf?, namedTypes_isSome_iff]
  | list items => rw [typeOf?, arrayOf?_isSome_iff]
  | object entries =>
      rw [typeOf?, Option.isSome_map, rulesOf?_isSome_iff]
      constructor
      · intro inner
        exact .record fun e mem => inner e mem rfl
      · intro isType
        cases isType with
        | record inner => exact fun e mem _ => inner e mem
  | _ =>
      simp only [typeOf?, Option.isSome_none, Bool.false_eq_true, false_iff]
      intro isType
      cases isType
termination_by structural v

/-- The type of an array is declared exactly if it has at most one item type. -/
theorem arrayOf?_isSome_iff (items : List Value) :
    (arrayOf? items).isSome = true ↔ IsType (.list items) := by
  match items with
  | [] => exact iff_of_true rfl .anyItems
  | [item] =>
      rw [arrayOf?, Option.isSome_map, typeOf?_isSome_iff]
      constructor
      · exact .items
      · intro isType
        cases isType with
        | items own => exact own
  | _ :: _ :: _ =>
      simp only [arrayOf?, Option.isSome_none, Bool.false_eq_true, false_iff]
      intro isType
      cases isType
termination_by structural items

end

/-- A schema can be read off a document exactly if the document is well formed. -/
theorem schemaOf?_isSome_iff (raw : Value) (strict : Bool) :
    (schemaOf? raw strict).isSome = true ↔ WellFormed raw := by
  cases raw with
  | object entries =>
      rw [schemaOf?, Option.isSome_map, rulesOf?_isSome_iff]
      constructor
      · intro inner
        exact .entries fun e mem => inner e mem rfl
      · intro wellFormed
        cases wellFormed with
        | entries inner => exact fun e mem _ => inner e mem
  | _ =>
      simp only [schemaOf?, Option.isSome_none, Bool.false_eq_true, false_iff]
      intro wellFormed
      cases wellFormed

end Document

end DataContract
