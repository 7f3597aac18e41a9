/-
# The defect that an error points at

A declaration that is not well formed has a first defect: walking over its parts in their order,
and into each part before the next one, some place is the first at which something is wrong by
itself. The way there is walked here one step at a time, by the grammar and without compiling
anything. A step goes from a record to the first property that is not well formed, from a property
into its type or the record that it declares, and from an array to its item type. Compiling
gives the error of the place at which the way ends, wrapped once for each mapping that is entered
on the way.

Nothing is looked at beyond the way: of the properties before it only that they are well formed,
and of what comes after it nothing at all.
-/

import DataContract.Proofs.Schema.Grammar
import DataContract.Proofs.Value.Entries

set_option autoImplicit false

namespace DataContract

/-! ## Chains of errors -/

namespace SchemaError

/-- What an error says and what its causes say, the outermost first. -/
def chain (e : SchemaError) : List Cause := .declaration e.message :: e.causes

/-- An error inside nested mappings under some keys, the outermost first. -/
def enclosed (path : List Value) (e : SchemaError) : SchemaError := path.foldr .nested e

/-- What is said about a property that declares a record. -/
def unparsed (key : Value) : Cause :=
  .declaration ("Could not parse property " ++ key.shown ++ " as schema")

/-- The property that an error is about. -/
def property? : SchemaError → Option Value
  | .nested key _ | .textOptionsOnly key | .patternExpected key | .choicesNotAList key
  | .boundNotANumber key _ | .customNotCallable key _ | .severalItemTypes key
  | .unsupportedType key _ | .malformedPattern key _ _ _ => some key
  | .notAMapping _ | .patternCountTooLarge | .patternOptionsClash | .endless => none

/-- Whether an error is about a property that declares a record. -/
def isNested : SchemaError → Bool
  | .nested .. => true
  | _ => false

/-- An error names the property that it is about. -/
theorem exists_message_eq {e : SchemaError} {key : Value} (about : e.property? = some key) :
    ∃ before after, e.message = before ++ key.shown ++ after := by
  have first (start : String) : ∃ before after, start ++ key.shown = before ++ key.shown ++ after :=
    ⟨start, "", String.append_empty.symm⟩
  have more {text : String} (holds : ∃ before after, text = before ++ key.shown ++ after)
      (rest : String) : ∃ before after, text ++ rest = before ++ key.shown ++ after := by
    obtain ⟨before, after, rfl⟩ := holds
    exact ⟨before, after ++ rest, String.append_assoc⟩
  cases e with
  | notAMapping _ | patternCountTooLarge | patternOptionsClash | endless => cases about
  | boundNotANumber _ bound =>
      cases about
      exact more (more (more (first "Invalid schema for ") ": ") bound.label) _
  | malformedPattern _ source defect position =>
      cases about
      exact more (more (more (more (first "Invalid schema for ") ": bad regex ") _) ": ") _
  | customNotCallable _ category =>
      cases about
      exact more (more (first "Custom validator for ") " must be a function, was ") category
  | unsupportedType _ name =>
      cases about
      exact more (more (first "Unsupported type on ") ": ") name
  | _ =>
      cases about
      exact more (first _) _

theorem chain_nested (key : Value) (e : SchemaError) :
    (nested key e).chain = unparsed key :: e.chain := rfl

/-- The chain has one link for each mapping on the way and then the error itself. -/
theorem chain_enclosed {e : SchemaError} (last : e.causes = []) (path : List Value) :
    (e.enclosed path).chain = path.map unparsed ++ [.declaration e.message] := by
  induction path with
  | nil => exact congrArg _ last
  | cons key rest ih =>
      rw [enclosed, List.foldr_cons, chain_nested, List.map_cons, List.cons_append, ← ih, enclosed]

/-- The way and the last error can be read off an error. -/
theorem enclosed_inj {e f : SchemaError} (own : e.isNested = false) (own' : f.isNested = false)
    {path path' : List Value} (same : e.enclosed path = f.enclosed path') :
    path = path' ∧ e = f := by
  induction path generalizing path' with
  | nil =>
      cases path' with
      | nil => exact ⟨rfl, same⟩
      | cons key rest =>
          cases (same : e = .nested key (f.enclosed rest))
          cases own
  | cons key rest ih =>
      cases path' with
      | nil =>
          cases (same : .nested key (e.enclosed rest) = f)
          cases own'
      | cons key' rest' =>
          have parts : nested key (e.enclosed rest) = nested key' (f.enclosed rest') := same
          injection parts with keys below
          obtain ⟨rfl, rfl⟩ := ih below
          exact ⟨by rw [keys], rfl⟩

end SchemaError

namespace Declaration

/-! ## The options of a property -/

/-- Whether a type token is that of texts. -/
def isTextToken : Value → Bool
  | .callable (.token .text) => true
  | _ => false

/-- The checks of the options beside a type. -/
inductive OptionCheck where
  | textsOnly
  | pattern
  | choices
  | custom
  | bound (bound : Bound)

namespace OptionCheck

/-- The checks in the order in which they are made. -/
def inOrder : List OptionCheck :=
  [.textsOnly, .pattern, .choices, .custom, .bound .min, .bound .max]

/-- Whether options beside a type fail a check. Options that are left out fail none. -/
def fails (token : Value) (options : Entries) : OptionCheck → Bool
  | .textsOnly =>
    ((options.option? "regex").isSome || (options.option? "enum").isSome) && !isTextToken token
  | .pattern =>
    match options.option? "regex" with
    | none | some (.pattern _) => false
    | some _ => true
  | .choices =>
    match options.option? "enum" with
    | none | some (.list _) | some (.tuple _) | some (.set _) => false
    | some _ => true
  | .custom => (options.option? "custom").any (!·.isCallable)
  | .bound b => (options.option? b.label).any (!·.isNumber)

/-- What is said about a failed check. -/
def error (key : Value) (options : Entries) : OptionCheck → SchemaError
  | .textsOnly => .textOptionsOnly key
  | .pattern => .patternExpected key
  | .choices => .choicesNotAList key
  | .custom => .customNotCallable key ((options.option? "custom").getD .null).category
  | .bound b => .boundNotANumber key b

/-- The first check that options fail. -/
def first? (token : Value) (options : Entries) : Option OptionCheck :=
  inOrder.find? (fails token options)

/-- An outcome is the error of the first of some checks that fails, and none if all pass. -/
def Decide (checks : List OptionCheck) (key token : Value) (options : Entries) {α : Type}
    (outcome : Except SchemaError α) : Prop :=
  match checks.find? (fails token options) with
  | some check => outcome = .error (check.error key options)
  | none => ∃ a, outcome = .ok a

variable {key token : Value} {options : Entries} {check : OptionCheck} {α β : Type}

theorem decide_nil (a : α) : Decide [] key token options (.ok a) := ⟨a, rfl⟩

theorem decide_single {outcome : Except SchemaError α}
    (decided : if check.fails token options then outcome = .error (check.error key options)
      else ∃ a, outcome = .ok a) : Decide [check] key token options outcome := by
  rw [Decide, List.find?_cons, List.find?_nil]
  cases fails : check.fails token options with
  | true => rwa [fails, if_pos rfl] at decided
  | false => rwa [fails, if_neg Bool.false_ne_true] at decided

/-- A check that is made before others comes first among what decides. -/
theorem Decide.bind {checks : List OptionCheck} {outcome : Except SchemaError α}
    {next : α → Except SchemaError β} (first : Decide [check] key token options outcome)
    (later : ∀ a, Decide checks key token options (next a)) :
    Decide (check :: checks) key token options (outcome >>= next) := by
  rw [Decide, List.find?_cons, List.find?_nil] at first
  rw [Decide, List.find?_cons]
  cases fails : check.fails token options with
  | true =>
      rw [fails] at first
      exact congrArg (· >>= next) first
  | false =>
      rw [fails] at first
      obtain ⟨a, done⟩ := first
      rw [done]
      exact later a

theorem Decide.guarded {checks : List OptionCheck} {outcome : Except SchemaError α}
    (later : Decide checks key token options outcome) :
    Decide (check :: checks) key token options
      (if check.fails token options then .error (check.error key options) else outcome) := by
  rw [Decide, List.find?_cons]
  cases check.fails token options with
  | true => rfl
  | false => exact later

end OptionCheck

theorem isTextToken_iff (token : Value) : isTextToken token = true ↔ token = textToken := by
  rw [textToken]
  cases token with
  | callable f =>
      cases f with
      | token t => cases t <;> simp [isTextToken]
      | function id b => simp [isTextToken]
  | _ => simp [isTextToken]

section Options

variable (key token : Value) (options : Entries)

theorem patternOf_decided : OptionCheck.Decide [.pattern] key token options
    (patternOf key (options.option? "regex")) := by
  apply OptionCheck.decide_single
  rw [OptionCheck.fails]
  cases options.option? "regex" with
  | none => exact ⟨_, rfl⟩
  | some v =>
      cases v with
      | pattern p => exact ⟨_, rfl⟩
      | _ => rfl

theorem choicesOf_decided : OptionCheck.Decide [.choices] key token options
    (choicesOf key (options.option? "enum")) := by
  apply OptionCheck.decide_single
  rw [OptionCheck.fails]
  cases options.option? "enum" with
  | none => exact ⟨_, rfl⟩
  | some v =>
      cases v with
      | list _ | tuple _ | set _ => exact ⟨_, rfl⟩
      | _ => rfl

theorem customOf_decided : OptionCheck.Decide [.custom] key token options
    (customOf key ((options.option? "custom").getD .null)) := by
  apply OptionCheck.decide_single
  rw [OptionCheck.fails, OptionCheck.error]
  cases found : options.option? "custom" with
  | none => exact ⟨_, rfl⟩
  | some v =>
      cases v with
      | callable f => exact ⟨_, rfl⟩
      | null => cases ((option?_eq_some_iff _ _ _).mp found).2 rfl
      | _ => rfl

theorem boundOf_decided (b : Bound) :
    OptionCheck.Decide [.bound b] key token options (boundOf key b options) := by
  apply OptionCheck.decide_single
  rw [OptionCheck.fails, boundOf]
  cases options.option? b.label with
  | none => exact ⟨_, rfl⟩
  | some v =>
      dsimp only
      rw [Option.any_some, Value.isNumber]
      cases v.number? with
      | none => rfl
      | some n => exact ⟨_, rfl⟩

/-- The rule of a property fails as the first check does that fails, and is made if none does. -/
theorem ruleOf_decided {type : TypeSpec} (resolved : type = .scalar .text ↔ token = textToken) :
    OptionCheck.Decide OptionCheck.inOrder key token options (ruleOf key type options) := by
  have texts : isTextType type = isTextToken token := by
    rw [Bool.eq_iff_iff, isTextType_iff, isTextToken_iff, resolved]
  rw [ruleOf, texts]
  apply OptionCheck.Decide.guarded
  exact (patternOf_decided key token options).bind fun _ =>
    (choicesOf_decided key token options).bind fun _ =>
    (customOf_decided key token options).bind fun _ =>
    (boundOf_decided key token options .min).bind fun _ =>
    (boundOf_decided key token options .max).bind fun _ => OptionCheck.decide_nil _

end Options

/-! ## Places in a declaration -/

/-- A part of a declaration: the properties of a record, the entry of a property, or the type of
one. Where a record is nested, the keys about the property that holds it are passed over. -/
inductive Site where
  | record (nested : Bool) (entries : Entries)
  | entry (key entry : Value)
  | type (key type : Value)

namespace Site

/-- What the grammar asks of a place. -/
def WellFormed : Site → Prop
  | .record nested entries => ∀ e ∈ entries, (nested && isMetaKey e.1) = false → IsEntry e.2
  | .entry _ v => IsEntry v
  | .type _ v => IsType v

/-- Compiling a place gives an error. -/
def GivesError (e : SchemaError) : Site → Prop
  | .record nested entries => compileEntries nested entries = .error e
  | .entry key v => compileEntry key v = .error e
  | .type key v => compileType key v = .error e

/-- Something is wrong at a place by itself, whatever lies below it. -/
inductive OwnDefect : Site → Value → SchemaError → Prop
  /-- A mapping without a type has a custom validator that cannot be called. -/
  | custom {key v custom : Value} {entries : Entries} :
      declared? v = some entries → entries.get? typeKey = none →
      entries.option? "custom" = some custom → custom.isCallable = false →
      OwnDefect (.entry key v) key (.customNotCallable key custom.category)
  /-- The type is one, but an option beside it is not what it has to be. -/
  | option {key v token : Value} {options : Entries} {check : OptionCheck} :
      declared? v = some options → options.get? typeKey = some token → IsType token →
      OptionCheck.first? token options = some check →
      OwnDefect (.entry key v) key (check.error key options)
  /-- An array has more than one item type. -/
  | several {key v first second : Value} {more : List Value} :
      v.items? = some (first :: second :: more) →
      OwnDefect (.type key v) key (.severalItemTypes key)
  /-- What is neither an array nor a mapping is no type. -/
  | unsupported {key v : Value} :
      v.items? = none → declared? v = none → ¬ IsType v →
      OwnDefect (.type key v) key (.unsupportedType key v.tokenName)

/-- The way from a place to the part of it in which the first defect lies if that part is not well
formed, and the key of the mapping that is entered, if one is. -/
inductive Step : Site → Option Value → Site → Prop
  /-- The properties before that one are well formed or passed over. -/
  | property {nested : Bool} {before after : Entries} {key v : Value} :
      (Site.record nested before).WellFormed → (nested && isMetaKey key) = false →
      Step (.record nested (before ++ (key, v) :: after)) none (.entry key v)
  /-- A mapping without a type declares a record, which is read after the custom validator. -/
  | nested {key v : Value} {entries : Entries} :
      declared? v = some entries → entries.get? typeKey = none → AdmitsCustom entries →
      Step (.entry key v) (some key) (.record true entries)
  /-- The type is read before the options beside it. -/
  | typed {key v token : Value} {options : Entries} :
      declared? v = some options → options.get? typeKey = some token →
      Step (.entry key v) none (.type key token)
  | bare {key v : Value} : declared? v = none → Step (.entry key v) none (.type key v)
  /-- An array leads to its item type, and no mapping is entered. -/
  | item {key v item : Value} : v.items? = some [item] → Step (.type key v) none (.type key item)
  /-- A mapping as a type declares a record. -/
  | mapping {key v : Value} {entries : Entries} :
      declared? v = some entries → Step (.type key v) (some key) (.record false entries)

/-- The first defect of a place: the keys of the mappings that are entered on the way to it, the
property on which it occurs, and what is said about it. -/
inductive FirstDefect : Site → List Value → Value → SchemaError → Prop
  | here {site : Site} {property : Value} {e : SchemaError} :
      OwnDefect site property e → FirstDefect site [] property e
  | onward {site part : Site} {entered : Option Value} {path : List Value} {property : Value}
      {e : SchemaError} :
      Step site entered part → FirstDefect part path property e →
      FirstDefect site (entered.toList ++ path) property e

/-- Two places that are walked alike down to one defect. On the way they may differ in the
well-formed properties that come before, and in all that comes after. -/
inductive AlikeToDefect : Site → Site → Prop
  | here {site other : Site} {property : Value} {e : SchemaError} :
      OwnDefect site property e → OwnDefect other property e → AlikeToDefect site other
  | onward {site part other otherPart : Site} {entered : Option Value} :
      Step site entered part → Step other entered otherPart → AlikeToDefect part otherPart →
      AlikeToDefect site other

/-! ## A defect gives its error -/

theorem GivesError.unique {site : Site} {e f : SchemaError} (gives : site.GivesError e)
    (gives' : site.GivesError f) : e = f := by
  cases site <;> exact Except.error.inj (gives.symm.trans gives')

/-- Well-formed properties before a record's other properties do not change its error. -/
theorem GivesError.append {nested : Bool} {before : Entries}
    (wellFormed : (Site.record nested before).WellFormed) {rest : Entries} {e : SchemaError}
    (gives : (Site.record nested rest).GivesError e) :
    (Site.record nested (before ++ rest)).GivesError e := by
  induction before with
  | nil => exact gives
  | cons first others ih =>
      obtain ⟨key, v⟩ := first
      rw [WellFormed, List.forall_mem_cons] at wellFormed
      have later : compileEntries nested (others ++ rest) = .error e := ih wellFormed.2
      rw [GivesError, List.cons_append, compileEntries]
      split
      · exact later
      next kept =>
        obtain ⟨r, compiled⟩ := (compileEntry_ok_iff key v).mpr (wellFormed.1 (by simpa using kept))
        rw [compiled, later]
        rfl

theorem OwnDefect.givesError {site : Site} {property : Value} {e : SchemaError}
    (own : OwnDefect site property e) : site.GivesError e := by
  cases own with
  | @custom _ v custom entries declared untyped found refused =>
      have present := (option?_eq_some_iff _ _ _).mp found
      have checked : customOf property ((entries.get? (.text "custom")).getD .null) =
          .error (.customNotCallable property custom.category) := by
        rw [present.1, Option.getD_some]
        cases custom with
        | null => cases present.2 rfl
        | callable f => cases refused
        | _ => rfl
      rw [GivesError, compileEntry_of_no_type property declared untyped, checked]
      rfl
  | @option _ v token options check declared typed isType first =>
      obtain ⟨type, compiled⟩ := (compileType_ok_iff property token).mpr isType
      have resolved : type = .scalar .text ↔ token = textToken := by
        rw [← compileType_eq_text_iff property token, compiled, Except.ok.injEq]
      have decided := ruleOf_decided property token options resolved
      rw [OptionCheck.first?] at first
      rw [OptionCheck.Decide, first] at decided
      rw [GivesError, compileEntry_of_type property declared typed, compiled]
      exact decided
  | @several _ v first second more items =>
      rw [GivesError]
      cases v with
      | list own | tuple own =>
          cases items
          rfl
      | _ => cases items
  | @unsupported _ v noItems bare refused =>
      have unknown : simpleType? v = none := by
        rw [← compileType_ok_iff_of_simple property noItems bare,
          compileType_of_simple property noItems bare, simpleType_ok_iff_isSome] at refused
        simpa using refused
      rw [GivesError, compileType_of_simple property noItems bare, simpleType, unknown]

/-- A step leads to the error of the part, wrapped if a mapping was entered. -/
theorem Step.givesError {site part : Site} {entered : Option Value}
    (step : Step site entered part) {e : SchemaError} (gives : part.GivesError e) :
    site.GivesError (e.enclosed entered.toList) := by
  cases step with
  | @property nested before after key v wellFormed kept =>
      refine GivesError.append wellFormed ?_
      have failed : compileEntry key v = .error e := gives
      rw [GivesError, compileEntries, kept, failed]
      rfl
  | @nested key v entries declared untyped admitted =>
      obtain ⟨custom, checked⟩ := (customOf_get_ok_iff key entries).mpr admitted
      have failed : compileEntries true entries = .error e := gives
      rw [GivesError, compileEntry_of_no_type key declared untyped, checked, failed]
      rfl
  | @typed key v token options declared typed =>
      have failed : compileType key token = .error e := gives
      rw [GivesError, compileEntry_of_type key declared typed, failed]
      rfl
  | @bare key v bare =>
      have failed : compileType key v = .error e := gives
      rw [GivesError, compileEntry_of_bare key bare, failed]
      rfl
  | @item key v item items =>
      have failed : compileType key item = .error e := gives
      rw [GivesError]
      cases v with
      | list own | tuple own =>
          cases items
          rw [compileType, compileItemType, failed]
          rfl
      | _ => cases items
  | @mapping key v entries declared =>
      have failed : compileEntries false entries = .error e := gives
      rw [GivesError, compileType_of_declared key declared, failed]
      rfl

theorem FirstDefect.givesError {site : Site} {path : List Value} {property : Value}
    {e : SchemaError} (first : FirstDefect site path property e) :
    site.GivesError (e.enclosed path) := by
  induction first with
  | here own => exact own.givesError
  | onward step _ ih =>
      rw [SchemaError.enclosed, List.foldr_append]
      exact step.givesError ih

/-- What is wrong by itself is said without a cause, about the property at which it is. -/
theorem OwnDefect.error {site : Site} {property : Value} {e : SchemaError}
    (own : OwnDefect site property e) :
    e.isNested = false ∧ e.causes = [] ∧ e.property? = some property := by
  cases own with
  | @option _ _ _ _ check => cases check <;> exact ⟨rfl, rfl, rfl⟩
  | _ => exact ⟨rfl, rfl, rfl⟩

theorem FirstDefect.error {site : Site} {path : List Value} {property : Value}
    {e : SchemaError} (first : FirstDefect site path property e) :
    e.isNested = false ∧ e.causes = [] ∧ e.property? = some property := by
  induction first with
  | here own => exact own.error
  | onward _ _ ih => exact ih

theorem FirstDefect.unique {site : Site} {path path' : List Value} {property property' : Value}
    {e e' : SchemaError} (first : FirstDefect site path property e)
    (other : FirstDefect site path' property' e') :
    path' = path ∧ property' = property ∧ e' = e := by
  obtain ⟨own, -, about⟩ := first.error
  obtain ⟨own', -, about'⟩ := other.error
  obtain ⟨rfl, rfl⟩ := SchemaError.enclosed_inj own' own (other.givesError.unique first.givesError)
  exact ⟨rfl, Option.some.inj (about'.symm.trans about), rfl⟩

/-- Places that are walked alike give one error. -/
theorem AlikeToDefect.givesError {site other : Site} (alike : AlikeToDefect site other) :
    ∃ e, site.GivesError e ∧ other.GivesError e := by
  induction alike with
  | here own own' => exact ⟨_, own.givesError, own'.givesError⟩
  | onward step step' _ ih =>
      obtain ⟨e, gives, gives'⟩ := ih
      exact ⟨_, step.givesError gives, step'.givesError gives'⟩

/-! ## Every faulty place has a first defect -/

/-- A record with a property that is not well formed has a first one. -/
theorem exists_first_faulty {nested : Bool} {entries : Entries}
    (faulty : ¬ (Site.record nested entries).WellFormed) :
    ∃ before key v after, entries = before ++ (key, v) :: after ∧
      (Site.record nested before).WellFormed ∧ (nested && isMetaKey key) = false ∧
      ¬ IsEntry v := by
  induction entries with
  | nil => exact (faulty (List.forall_mem_nil _)).elim
  | cons e rest ih =>
      obtain ⟨key, v⟩ := e
      by_cases own : (nested && isMetaKey key) = false → IsEntry v
      · have later : ¬ (Site.record nested rest).WellFormed :=
          fun others => faulty (List.forall_mem_cons.mpr ⟨own, others⟩)
        obtain ⟨before, k, w, after, rfl, wellFormed, kept, refused⟩ := ih later
        exact ⟨(key, v) :: before, k, w, after, rfl, List.forall_mem_cons.mpr ⟨own, wellFormed⟩,
          kept, refused⟩
      · obtain ⟨kept, refused⟩ := Classical.not_imp.mp own
        exact ⟨[], key, v, rest, rfl, List.forall_mem_nil _, kept, refused⟩

/-- Options that are not admitted beside a type fail a check. -/
theorem exists_first_check {token : Value} {options : Entries} (isType : IsType token)
    (refused : ¬ AdmitsOptions token options) :
    ∃ check, OptionCheck.first? token options = some check := by
  obtain ⟨type, compiled⟩ := (compileType_ok_iff .null token).mpr isType
  have resolved : type = .scalar .text ↔ token = textToken := by
    rw [← compileType_eq_text_iff .null token, compiled, Except.ok.injEq]
  have decided := ruleOf_decided .null token options resolved
  rw [OptionCheck.Decide] at decided
  rw [OptionCheck.first?]
  cases first : OptionCheck.inOrder.find? (OptionCheck.fails token options) with
  | some check => exact ⟨check, rfl⟩
  | none =>
      rw [first] at decided
      exact (refused ((ruleOf_ok_iff .null token type options resolved).mp decided)).elim

/-- A place that is not well formed is wrong by itself, or there is a step to a part that is not. -/
theorem ownDefect_or_step {site : Site} (faulty : ¬ site.WellFormed) :
    (∃ property e, OwnDefect site property e) ∨
      ∃ entered part, Step site entered part ∧ ¬ part.WellFormed := by
  cases site with
  | record nested entries =>
      obtain ⟨before, key, v, after, rfl, wellFormed, kept, refused⟩ := exists_first_faulty faulty
      exact .inr ⟨_, .entry key v, .property wellFormed kept, refused⟩
  | entry key v =>
      rw [WellFormed] at faulty
      cases declared : declared? v with
      | none =>
          rw [isEntry_iff_of_bare declared] at faulty
          exact .inr ⟨_, .type key v, .bare declared, faulty⟩
      | some entries =>
          cases typed : entries.get? typeKey with
          | some token =>
              rw [isEntry_iff_of_type declared typed] at faulty
              by_cases isType : IsType token
              · obtain ⟨check, first⟩ :=
                  exists_first_check isType fun admitted => faulty ⟨isType, admitted⟩
                exact .inl ⟨_, _, .option declared typed isType first⟩
              · exact .inr ⟨_, .type key token, .typed declared typed, isType⟩
          | none =>
              rw [isEntry_iff_of_no_type declared typed] at faulty
              by_cases admitted : AdmitsCustom entries
              · refine .inr ⟨_, .record true entries, .nested declared typed admitted, ?_⟩
                exact fun wellFormed => faulty ⟨admitted, wellFormed⟩
              · obtain ⟨custom, found, refused⟩ : ∃ custom,
                    entries.option? "custom" = some custom ∧ ¬ custom.isCallable = true := by
                  simpa only [AdmitsCustom, not_forall, exists_prop] using admitted
                exact .inl ⟨_, _, .custom declared typed found (by simpa using refused)⟩
  | type key v =>
      rw [WellFormed] at faulty
      cases items : v.items? with
      | some own =>
          rw [isType_iff_of_items items] at faulty
          cases own with
          | nil => exact (faulty (.inl rfl)).elim
          | cons item more =>
              cases more with
              | nil =>
                  exact .inr ⟨_, .type key item, .item items, fun isType =>
                    faulty (.inr ⟨item, rfl, isType⟩)⟩
              | cons second others => exact .inl ⟨_, _, .several items⟩
      | none =>
          cases declared : declared? v with
          | some entries =>
              refine .inr ⟨_, .record false entries, .mapping declared, fun wellFormed => ?_⟩
              exact faulty (.record declared fun e mem => wellFormed e mem rfl)
          | none => exact .inl ⟨_, _, .unsupported items declared faulty⟩

/-- A measure that every step makes smaller. -/
noncomputable def size : Site → Nat
  | .record _ entries => 2 * sizeOf entries
  | .entry _ v => 2 * sizeOf v + 1
  | .type _ v => 2 * sizeOf v

theorem sizeOf_lt_of_declared {v : Value} {entries : Entries}
    (declared : declared? v = some entries) : sizeOf entries < sizeOf v := by
  cases v with
  | object own | frozen own =>
      cases declared
      simp
  | _ => cases declared

theorem Step.size_lt {site part : Site} {entered : Option Value}
    (step : Step site entered part) : part.size < site.size := by
  cases step with
  | @property nested before after key v =>
      have smaller : sizeOf v < sizeOf (before ++ (key, v) :: after) :=
        Entries.sizeOf_lt_of_mem (List.mem_append_right before List.mem_cons_self)
      rw [size, size]
      omega
  | nested declared | mapping declared =>
      have smaller := sizeOf_lt_of_declared declared
      rw [size, size]
      omega
  | typed declared typed =>
      obtain ⟨k, mem⟩ := Entries.mem_of_get? typed
      have smaller := sizeOf_lt_of_declared declared
      have inside := Entries.sizeOf_lt_of_mem mem
      rw [size, size]
      omega
  | bare =>
      rw [size, size]
      omega
  | @item key v item items =>
      have smaller : sizeOf item < sizeOf v := by
        cases v with
        | list own | tuple own =>
            cases items
            simp
            omega
        | _ => cases items
      rw [size, size]
      omega

/-- A place that is not well formed has a first defect. -/
theorem exists_firstDefect (site : Site) (faulty : ¬ site.WellFormed) :
    ∃ path property e, FirstDefect site path property e := by
  rcases ownDefect_or_step faulty with ⟨property, e, own⟩ | ⟨entered, part, step, below⟩
  · exact ⟨[], property, e, .here own⟩
  · have smaller := step.size_lt
    obtain ⟨path, property, e, first⟩ := exists_firstDefect part below
    exact ⟨_, property, e, .onward step first⟩
  termination_by site.size

end Site

/-- For every mapping that is no well-formed declaration there is exactly one first defect, and
compiling points at it in either mode: the error and its causes name the properties whose mappings
are entered on the way to the defect, the outermost first and each once, and last comes what is
wrong there, which names the property that it is wrong about. Every declaration that is walked alike
down to a defect gives the same error, whatever comes before or after on the way. -/
theorem compile_points_at_first_defect {declaration : Value} {entries : Entries}
    (declared : declared? declaration = some entries) (faulty : ¬ WellFormed declaration) :
    ∃ path property e, Site.FirstDefect (.record false entries) path property e ∧
      (∀ path' property' e', Site.FirstDefect (.record false entries) path' property' e' →
        path' = path ∧ property' = property ∧ e' = e) ∧
      (∀ strict, compile declaration strict = .error (e.enclosed path)) ∧
      (e.enclosed path).chain = path.map SchemaError.unparsed ++ [.declaration e.message] ∧
      (∃ before after, e.message = before ++ property.shown ++ after) ∧
      ∀ other others, declared? other = some others →
        Site.AlikeToDefect (.record false entries) (.record false others) →
        ∀ strict, compile other strict = .error (e.enclosed path) := by
  have faultyRecord : ¬ (Site.record false entries).WellFormed :=
    fun wellFormed => faulty (.entries declared fun e mem => wellFormed e mem rfl)
  obtain ⟨path, property, e, first⟩ := Site.exists_firstDefect _ faultyRecord
  have gives : compileEntries false entries = .error (e.enclosed path) := first.givesError
  refine ⟨path, property, e, first, fun path' property' e' => first.unique, fun strict => ?_,
    SchemaError.chain_enclosed first.error.2.1 path, SchemaError.exists_message_eq first.error.2.2,
    fun other others declared' alike strict => ?_⟩
  · rw [compile_of_declared strict declared, gives]
    rfl
  · obtain ⟨e', gave, gives'⟩ := alike.givesError
    have failed : compileEntries false others = .error e' := gives'
    rw [compile_of_declared strict declared', failed, gave.unique first.givesError]
    rfl

/-- A book whose author has homes, with a street that is no type. -/
def bookDeclaration : Entries :=
  [(.text "title", .callable (.token .text)),
    (.text "author", .object [(.text "homes", .object
      [(.text "type", .list [.object [(.text "street", .text "line")]])])]),
    (.text "pages", .int 5)]

/-- The error of the book leads over the author and the homes to the street; the pages, which are
no type either, are not spoken of. -/
theorem compile_points_at_first_defect_book :
    declared? (.object bookDeclaration) = some bookDeclaration ∧
      ¬ WellFormed (.object bookDeclaration) ∧
      ∃ path property e, Site.FirstDefect (.record false bookDeclaration) path property e ∧
        (e.enclosed path).chain = [SchemaError.unparsed (.text "author"),
          SchemaError.unparsed (.text "homes"),
          .declaration "Unsupported type on street: line"] := by
  have faulty : ¬ WellFormed (.object bookDeclaration) :=
    (compile_ok_iff_wellFormed _ true).2.mp ⟨_, rfl⟩
  have declared : declared? (.object bookDeclaration) = some bookDeclaration := rfl
  obtain ⟨path, property, e, first, -, gives, -⟩ := compile_points_at_first_defect declared faulty
  refine ⟨declared, faulty, path, property, e, first, ?_⟩
  rw [← Except.error.inj (gives true)]
  rfl

end Declaration

end DataContract
