/-
# Spellings of nested records

A property that holds a nested record can be declared in several ways: by a mapping with the
declaration as its type, by one with the compiled schema or a validator as its type, and by the
declaration itself with the keys about the property beside it. They compile to the same rule,
in whatever declaration they stand and at however many places; in the type of an array the
first three can be exchanged too.

Where the nested declaration is faulty there is no schema to put in its place, and each way of
writing the declaration out fails with the same error about the property, caused by the error
of the declaration.
-/

import DataContract.Proofs.Schema.Grammar
import DataContract.Proofs.Value.Entries
import DataContract.Validation.Engine

set_option autoImplicit false

namespace DataContract.Declaration

/-! ## The spellings -/

/-- What a record can be given as where a type is asked for. -/
inductive Spells (s : Schema) : Value → Prop
  | declaration {v : Value} {entries : Entries} :
      declared? v = some entries → compile v true = .ok s → Spells s v
  | schema (id : Nat) : Spells s (.schema id s)
  | validator (id : Nat) : Spells s (.validator id s)

/-- The keys about the property that a nested declaration stands for. -/
def aboutProperty (required : Value) (custom : Option Callable) : Entries :=
  [(.text "required", required), (.text "custom", (custom.map Value.callable).getD .null)]

/-- An entry with a type, and with the keys about the property. -/
def typedEntry (type required : Value) (custom : Option Callable) : Value :=
  .object ((typeKey, type) :: aboutProperty required custom)

/-- A nested declaration with the keys about the property beside its own. -/
def implicitEntry (own : Entries) (required : Value) (custom : Option Callable) : Value :=
  .object (own ++ aboutProperty required custom)

/-- A declaration has no key that would be read in another way in a nested one. -/
structure Nestable (own : Entries) : Prop where
  type : own.get? typeKey = none
  required : own.get? (.text "required") = none
  custom : own.get? (.text "custom") = none

/-- What a property that holds a record can be given as. -/
inductive EntrySpells (s : Schema) (required : Value) (custom : Option Callable) : Value → Prop
  | typed {type : Value} : Spells s type →
      EntrySpells s required custom (typedEntry type required custom)
  | implicit {v : Value} {own : Entries} :
      declared? v = some own → compile v true = .ok s → Nestable own →
        EntrySpells s required custom (implicitEntry own required custom)

/-- The rule of a property that holds a record: no other field is set. -/
def recordRule (key : Value) (s : Schema) (required : Value) (custom : Option Callable) : Rule :=
  { Rule.ofType key (.nested s) with required := required.truthy, custom }

theorem customOf_about (key : Value) (custom : Option Callable) :
    customOf key ((custom.map Value.callable).getD .null) = .ok custom := by
  cases custom <;> rfl

/-- The options of an entry that has only a type and the keys about the property. -/
theorem ruleOf_typedEntry (key type required : Value) (custom : Option Callable) (s : Schema) :
    ruleOf key (.nested s) ((typeKey, type) :: aboutProperty required custom) =
      .ok (recordRule key s required custom) := by
  cases custom <;> rfl

/-- A strict schema has just the rules of its declaration. -/
theorem compileEntries_of_compile {v : Value} {own : Entries} (declared : declared? v = some own)
    {s : Schema} (compiled : compile v true = .ok s) :
    ∃ rules, compileEntries false own = .ok rules ∧ s = ⟨rules, false⟩ := by
  rw [compile_of_declared true declared] at compiled
  obtain ⟨rules, inner, rfl⟩ := map_eq_ok.mp compiled
  exact ⟨rules, inner, rfl⟩

theorem compileEntries_of_compile_error {v : Value} {own : Entries}
    (declared : declared? v = some own) {e : SchemaError} (faulty : compile v true = .error e) :
    compileEntries false own = .error e := by
  rw [compile_of_declared true declared] at faulty
  cases inner : compileEntries false own with
  | ok rules =>
      rw [inner] at faulty
      cases faulty
  | error own =>
      rw [inner] at faulty
      exact congrArg Except.error (Except.error.inj faulty)

/-- Every spelling of a record is a type of the same record. -/
theorem compileType_of_spells {s : Schema} {v : Value} (spells : Spells s v) (key : Value) :
    compileType key v = .ok (.nested s) := by
  cases spells with
  | declaration declared compiled =>
      obtain ⟨rules, inner, rfl⟩ := compileEntries_of_compile declared compiled
      rw [compileType_of_declared key declared, inner]
      rfl
  | schema id => rfl
  | validator id => rfl

/-- The keys about a property are passed over behind a nested declaration that has none. -/
theorem compileEntries_append_about {own : Entries} (nestable : Nestable own) (required : Value)
    (custom : Option Callable) :
    compileEntries true (own ++ aboutProperty required custom) = compileEntries false own := by
  obtain ⟨-, noRequired, noCustom⟩ := nestable
  rw [Entries.get?_eq_none_iff] at noRequired noCustom
  induction own with
  | nil => rfl
  | cons e rest ih =>
      obtain ⟨key, v⟩ := e
      have property : isMetaKey key = false := by
        rw [isMetaKey, noRequired _ List.mem_cons_self, noCustom _ List.mem_cons_self,
          Bool.or_false]
      have later := ih (fun e mem => noRequired e (List.mem_cons_of_mem _ mem))
        fun e mem => noCustom e (List.mem_cons_of_mem _ mem)
      rw [List.cons_append, compileEntries, compileEntries, property, later]
      rfl

/-- A nested declaration with the keys about the property beside it is compiled as it is alone. -/
theorem compileEntry_implicitEntry {own : Entries} (nestable : Nestable own) (key required : Value)
    (custom : Option Callable) :
    compileEntry key (implicitEntry own required custom) =
      ((compileEntries false own).mapError (.nested key)).map fun rules =>
        recordRule key ⟨rules, false⟩ required custom := by
  have declared : declared? (implicitEntry own required custom) =
      some (own ++ aboutProperty required custom) := rfl
  have untyped : (own ++ aboutProperty required custom).get? typeKey = none := by
    rw [Entries.get?_append, nestable.type]
    rfl
  have customs : (own ++ aboutProperty required custom).get? (.text "custom") =
      some ((custom.map Value.callable).getD .null) := by
    rw [Entries.get?_append, nestable.custom]
    rfl
  have requires :
      (own ++ aboutProperty required custom).get? (.text "required") = some required := by
    rw [Entries.get?_append, nestable.required]
    rfl
  rw [compileEntry_of_no_type key declared untyped, customs, Option.getD_some, customOf_about,
    compileEntries_append_about nestable]
  simp only [nestedRule, requires, Option.any_some, recordRule]
  cases compileEntries false own <;> rfl

/-- Every spelling of a record gives the same rule. -/
theorem compileEntry_of_spells {s : Schema} {required : Value} {custom : Option Callable}
    {v : Value} (spells : EntrySpells s required custom v) (key : Value) :
    compileEntry key v = .ok (recordRule key s required custom) := by
  cases spells with
  | typed type =>
      rw [typedEntry, compileEntry_of_type key rfl rfl, compileType_of_spells type key]
      exact ruleOf_typedEntry key _ required custom s
  | implicit declared compiled nestable =>
      obtain ⟨rules, inner, rfl⟩ := compileEntries_of_compile declared compiled
      rw [compileEntry_implicitEntry nestable, inner]
      rfl

/-! ## Arrays of records -/

/-- The type of arrays of a type, of arrays of such arrays, and so on. -/
def inArrays : Nat → Value → Value
  | 0, v => v
  | depth + 1, v => .list [inArrays depth v]

/-- The compiled type of nested arrays. -/
def arraysOf : Nat → TypeSpec → TypeSpec
  | 0, type => type
  | depth + 1, type => .array (some (arraysOf depth type))

/-- The item type decides what nested arrays are compiled to, also where it is faulty. -/
theorem compileType_inArrays (key v : Value) (depth : Nat) :
    compileType key (inArrays depth v) = (compileType key v).map (arraysOf depth) := by
  induction depth with
  | zero =>
      show compileType key v = (compileType key v).map fun type => type
      cases compileType key v <;> rfl
  | succ depth ih =>
      rw [inArrays, compileType, compileItemType, ih]
      cases compileType key v <;> rfl

/-! ## Places in a declaration -/

/-- What a value in a declaration stands for. -/
inductive Place where
  | declaration
  | type
  | entry

/-- One value is another in which the spelling of one record was changed: of the value itself,
or at some place in it. -/
inductive Respelled : Place → Value → Value → Prop
  | type {s : Schema} {v w : Value} : Spells s v → Spells s w → Respelled .type v w
  | entry {s : Schema} {required : Value} {custom : Option Callable} {v w : Value} :
      EntrySpells s required custom v → EntrySpells s required custom w → Respelled .entry v w
  | item {v w x y : Value} {before after : List Value} :
      v.items? = some (before ++ x :: after) → w.items? = some (before ++ y :: after) →
        Respelled .type x y → Respelled .type v w
  | property {v w key x y : Value} {before after : Entries} :
      declared? v = some (before ++ (key, x) :: after) →
        declared? w = some (before ++ (key, y) :: after) →
          Respelled .entry x y → Respelled .declaration v w
  | record {v w : Value} : Respelled .declaration v w → Respelled .type v w
  | bare {v w : Value} :
      declared? v = none → declared? w = none → Respelled .type v w → Respelled .entry v w
  | nested {v w key x y : Value} {before after : Entries} :
      declared? v = some (before ++ (key, x) :: after) →
        declared? w = some (before ++ (key, y) :: after) →
          Entries.get? (before ++ (key, x) :: after) typeKey = none → isMetaKey key = false →
            Respelled .entry x y → Respelled .entry v w
  | option {v w key x y : Value} {before after : Entries} :
      declared? v = some (before ++ (key, x) :: after) →
        declared? w = some (before ++ (key, y) :: after) →
          before.get? typeKey = none → key.equal typeKey = true →
            Respelled .type x y → Respelled .entry v w

/-- Two values are compiled alike in a place. -/
def Place.Agrees : Place → Value → Value → Prop
  | .declaration, v, w => ∃ before after, declared? v = some before ∧ declared? w = some after ∧
      compileEntries false before = compileEntries false after
  | .type, v, w => ∀ key, compileType key v = compileType key w
  | .entry, v, w => ∀ key, compileEntry key v = compileEntry key w

section Agree

variable {v w key x y : Value} {before after : Entries}

/-- Exchanging an entry under a key leaves what is found under another. -/
theorem get?_exchange (before after : Entries) {key n : Value} (other : key.equal n = false)
    (x y : Value) :
    Entries.get? (before ++ (key, y) :: after) n =
      Entries.get? (before ++ (key, x) :: after) n := by
  rw [Entries.get?_append, Entries.get?_append, Entries.get?, Entries.get?, other]
  rfl

/-- A rule depends on its options by what stands under their names, and not by the type. -/
theorem ruleOf_congr (key : Value) (type : TypeSpec)
    (same : ∀ name, name ≠ "type" → after.get? (.text name) = before.get? (.text name)) :
    ruleOf key type before = ruleOf key type after := by
  have option (name : String) (other : name ≠ "type") :
      after.option? name = before.option? name := by
    rw [Entries.option?, Entries.option?, same name other]
  simp only [ruleOf, boundOf, Bound.label, option "regex" (by decide), option "enum" (by decide),
    option "custom" (by decide), option "min" (by decide), option "max" (by decide),
    option "default" (by decide), option "message" (by decide), same "required" (by decide)]

/-- A property that is compiled alike gives the same rules. -/
theorem compileEntries_exchange {inner : Bool} (alike : Place.entry.Agrees x y) :
    compileEntries inner (before ++ (key, x) :: after) =
      compileEntries inner (before ++ (key, y) :: after) := by
  have same : compileEntry key x = compileEntry key y := alike key
  induction before with
  | nil => rw [List.nil_append, List.nil_append, compileEntries, compileEntries, same]
  | cons e rest ih =>
      obtain ⟨k, own⟩ := e
      rw [List.cons_append, List.cons_append, compileEntries, compileEntries, ih]

theorem compileType_of_items {items : List Value} (own : v.items? = some items) (key : Value) :
    compileType key v = compileItemType key items := by
  cases v with
  | list own' | tuple own' =>
      cases own
      rw [compileType]
  | _ => cases own

/-- An array is compiled alike if its item type is. -/
theorem agrees_item {before after : List Value} (own : v.items? = some (before ++ x :: after))
    (own' : w.items? = some (before ++ y :: after)) (alike : Place.type.Agrees x y) :
    Place.type.Agrees v w := by
  intro key
  rw [compileType_of_items own, compileType_of_items own']
  match before, after with
  | [], [] =>
      have same : compileType key x = compileType key y := alike key
      rw [List.nil_append, List.nil_append, compileItemType, compileItemType, same]
  | [], _ :: _ => rfl
  | _ :: [], _ => rfl
  | _ :: _ :: _, _ => rfl

section Mapping

variable (declared : declared? v = some (before ++ (key, x) :: after))
  (declared' : declared? w = some (before ++ (key, y) :: after))

include declared declared'

theorem agrees_nested
    (untyped : Entries.get? (before ++ (key, x) :: after) typeKey = none)
    (property : isMetaKey key = false) (alike : Place.entry.Agrees x y) :
    Place.entry.Agrees v w := by
  intro name
  -- The key is that of a property, so it is none of those that are looked up.
  rw [isMetaKey, Bool.or_eq_false_iff] at property
  have noType : key.equal typeKey = false :=
    (Entries.get?_eq_none_iff _ _).mp untyped (key, x) (by simp)
  have untyped' := (get?_exchange before after noType x y).trans untyped
  have required := get?_exchange before after property.1 x y
  have custom := get?_exchange before after property.2 x y
  rw [compileEntry_of_no_type name declared untyped,
    compileEntry_of_no_type name declared' untyped', custom, compileEntries_exchange alike]
  simp only [nestedRule, required]

theorem agrees_option (first : before.get? typeKey = none) (typed : key.equal typeKey = true)
    (alike : Place.type.Agrees x y) : Place.entry.Agrees v w := by
  intro name
  have found (z : Value) : Entries.get? (before ++ (key, z) :: after) typeKey = some z := by
    rw [Entries.get?_append, first, Entries.get?, if_pos typed, Option.none_or]
  have isType : key.identity? = some (.text "type") :=
    (Value.equal_iff_of_identity?_right rfl key).mp typed
  -- A key that equals the text of the type key is that text, so no other option is touched.
  have others (n : String) (other : n ≠ "type") : key.equal (.text n) = false := by
    rw [Bool.eq_false_iff, ne_eq, Value.equal_iff_of_identity?_right rfl, isType]
    simpa using other.symm
  have same (type : TypeSpec) := ruleOf_congr name type fun n other =>
    get?_exchange before after (others n other) x y
  rw [compileEntry_of_type name declared (found x), compileEntry_of_type name declared' (found y),
    alike name]
  simp only [same]

end Mapping

end Agree

/-- What is respelled is compiled alike. -/
theorem Respelled.agrees {place : Place} {v w : Value} (respelled : Respelled place v w) :
    place.Agrees v w := by
  induction respelled with
  | type first second =>
      intro key
      rw [compileType_of_spells first, compileType_of_spells second]
  | entry first second =>
      intro key
      rw [compileEntry_of_spells first, compileEntry_of_spells second]
  | item own own' _ ih => exact agrees_item own own' ih
  | property declared declared' _ ih =>
      exact ⟨_, _, declared, declared', compileEntries_exchange ih⟩
  | record _ ih =>
      obtain ⟨before, after, declared, declared', same⟩ := ih
      intro key
      rw [compileType_of_declared key declared, compileType_of_declared key declared', same]
  | bare bare bare' _ ih =>
      intro key
      have same := ih key
      rw [compileEntry_of_bare key bare, compileEntry_of_bare key bare', same]
  | nested declared declared' untyped property _ ih =>
      exact agrees_nested declared declared' untyped property ih
  | option declared declared' first typed _ ih =>
      exact agrees_option declared declared' first typed ih

/-- A declaration with other spellings at any of its places is compiled alike. -/
theorem compile_of_respelled {v w : Value}
    (respelled : Relation.EqvGen (Respelled .declaration) v w) (strict : Bool) :
    compile v strict = compile w strict := by
  induction respelled with
  | rel v w step =>
      obtain ⟨before, after, declared, declared', same⟩ := step.agrees
      rw [compile_of_declared strict declared, compile_of_declared strict declared', same]
  | refl v => rfl
  | symm v w _ ih => exact ih.symm
  | trans u v w _ _ first second => exact first.trans second

/-! ## Faulty records -/

/-- A faulty record is a faulty type wherever it is written out. -/
theorem compileType_of_faulty {v : Value} {own : Entries} (declared : declared? v = some own)
    {e : SchemaError} (faulty : compile v true = .error e) (key : Value) :
    compileType key v = .error (.nested key e) := by
  rw [compileType_of_declared key declared, compileEntries_of_compile_error declared faulty]
  rfl

theorem compileEntry_typed_of_error {key type : Value} {e : SchemaError}
    (faulty : compileType key type = .error e) (required : Value) (custom : Option Callable) :
    compileEntry key (typedEntry type required custom) = .error e := by
  rw [typedEntry, compileEntry_of_type key rfl rfl, faulty]
  rfl

/-- The spellings of a record can be exchanged for each other. As entries they give the same
rule, with the record as its type, whether the property is required and its custom validator,
and as item types the same arrays; exchanging them at any places of a declaration leaves what
it is compiled to, and so how data are validated. Of a faulty record every way of writing it out
fails with one error about the property, whose cause is the error of the record. -/
theorem spellings_interchangeable [UserCode] :
    (∀ v own s, declared? v = some own → compile v true = .ok s → ∀ key required custom,
      (∀ type, Spells s type → compileEntry key (typedEntry type required custom) =
        .ok (recordRule key s required custom)) ∧
      (Nestable own → compileEntry key (implicitEntry own required custom) =
        .ok (recordRule key s required custom)) ∧
      ∀ depth type, Spells s type →
        compileType key (inArrays depth type) = .ok (arraysOf depth (.nested s))) ∧
    (∀ v w, Relation.EqvGen (Respelled .declaration) v w → ∀ strict,
      compile v strict = compile w strict ∧ ∀ s t, compile v strict = .ok s →
        compile w strict = .ok t → ∀ data st, s.validate data st = t.validate data st) ∧
    ∀ v own e, declared? v = some own → compile v true = .error e → ∀ key required custom depth,
      (SchemaError.nested key e).message =
        "Could not parse property " ++ key.shown ++ " as schema" ∧
      (SchemaError.nested key e).causes = .declaration e.message :: e.causes ∧
      compileEntry key (typedEntry (inArrays depth v) required custom) = .error (.nested key e) ∧
      compileEntry key (inArrays (depth + 1) v) = .error (.nested key e) ∧
      (Nestable own →
        compileEntry key (implicitEntry own required custom) = .error (.nested key e)) := by
  refine ⟨?_, ?_, ?_⟩
  · intro v own s declared compiled key required custom
    refine ⟨fun type spells => ?_, fun nestable => ?_, fun depth type spells => ?_⟩
    · exact compileEntry_of_spells (.typed spells) key
    · exact compileEntry_of_spells (.implicit declared compiled nestable) key
    · rw [compileType_inArrays, compileType_of_spells spells]
      rfl
  · intro v w respelled strict
    have same := compile_of_respelled respelled strict
    refine ⟨same, fun s t first second data st => ?_⟩
    rw [same, second] at first
    rw [Except.ok.inj first]
  · intro v own e declared faulty key required custom depth
    have arrays (depth : Nat) : compileType key (inArrays depth v) = .error (.nested key e) := by
      rw [compileType_inArrays, compileType_of_faulty declared faulty]
      rfl
    refine ⟨rfl, rfl, compileEntry_typed_of_error (arrays depth) required custom, ?_,
      fun nestable => ?_⟩
    · have bare : declared? (inArrays (depth + 1) v) = none := rfl
      rw [compileEntry_of_bare key bare, arrays (depth + 1)]
      rfl
    · rw [compileEntry_implicitEntry nestable, compileEntries_of_compile_error declared faulty]
      rfl

/-- An address has a street. -/
def addressDeclaration : Entries := [(.text "street", .callable (.token .text))]

/-- A customer with one address spelled by its declaration, and with an array of addresses. -/
def customerDeclaration (home item : Value) : Value :=
  .object [(.text "home", home), (.text "others", .list [item])]

open WithoutUserCode in
/-- The address of a customer can be a nested declaration, and the items of the array a compiled
schema. A street that is a set is no address in any spelling. -/
theorem spellings_interchangeable_address :
    ∃ s, compile (.object addressDeclaration) true = .ok s ∧
      compileEntry (.text "home") (implicitEntry addressDeclaration (.bool true) none) =
        .ok (recordRule (.text "home") s (.bool true) none) ∧
      compile (customerDeclaration (implicitEntry addressDeclaration (.bool true) none)
          (.object addressDeclaration)) false =
        compile (customerDeclaration (typedEntry (.schema 1 s) (.bool true) none) (.validator 2 s))
          false ∧
      ∃ e, compile (.object [(.text "street", .callable (.token .set))]) true = .error e ∧
        compileEntry (.text "home")
            (implicitEntry [(.text "street", .callable (.token .set))] (.bool true) none) =
          .error (.nested (.text "home") e) := by
  obtain ⟨alike, exchanged, faulty⟩ := spellings_interchangeable
  obtain ⟨s, compiled⟩ : ∃ s, compile (.object addressDeclaration) true = .ok s := ⟨_, rfl⟩
  have declared : declared? (.object addressDeclaration) = some addressDeclaration := rfl
  have nestable : Nestable addressDeclaration := ⟨rfl, rfl, rfl⟩
  have home : Respelled .entry (implicitEntry addressDeclaration (.bool true) none)
      (typedEntry (.schema 1 s) (.bool true) none) :=
    .entry (.implicit declared compiled nestable) (.typed (.schema 1))
  have others : Respelled .entry (.list [.object addressDeclaration]) (.list [.validator 2 s]) := by
    have only (x : Value) : (Value.list [x]).items? = some ([] ++ x :: []) := rfl
    exact .bare rfl rfl
      (.item (only _) (only _) (.type (.declaration declared compiled) (.validator 2)))
  have first (x item : Value) : declared? (customerDeclaration x item) =
      some ([] ++ (.text "home", x) :: [(.text "others", .list [item])]) := rfl
  have second (x item : Value) : declared? (customerDeclaration x item) =
      some ([(.text "home", x)] ++ (.text "others", .list [item]) :: []) := rfl
  have respelled := Relation.EqvGen.trans _ _ _
    (.rel _ _ (Respelled.property (first _ _) (first _ _) home))
    (.rel _ _ (Respelled.property (second _ _) (second _ _) others))
  refine ⟨s, compiled, ((alike _ _ s declared compiled _ _ _).2.1 nestable), ?_, ?_⟩
  · exact (exchanged _ _ respelled false).1
  · have errors := faulty (.object [(.text "street", .callable (.token .set))]) _ _ rfl rfl
    exact ⟨_, rfl, (errors _ _ _ 0).2.2.2.2 ⟨rfl, rfl, rfl⟩⟩

end DataContract.Declaration
