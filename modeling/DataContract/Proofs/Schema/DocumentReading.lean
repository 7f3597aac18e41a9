/-
# Reading documents and compiling what was read

A document is first read into a declaration and then compiled. Both walk over the same
tree and tell rules, nested declarations and arrays apart on their own. Here they are shown
to agree at every place: what comes out is the schema that the document declares, whichever
of the two keys about a property is written first, and nothing comes out where the document
declares none.
-/

import DataContract.Proofs.Schema.DocumentGrammar
import DataContract.Proofs.Value.Entries
import DataContract.Proofs.Value.Shown
import DataContract.Schema.Document

set_option autoImplicit false

namespace DataContract.Document

open Declaration (bind_eq_ok typeKey isMetaKey isTextType compileType compileItemType compileEntry
  compileEntries ruleOf patternOf choicesOf boundOf customOf)

variable {order : List String} {key : Value}

theorem toOption_bind {ε α β : Type} (x : Except ε α) (f : α → Except ε β) :
    (x >>= f).toOption = x.toOption.bind fun a => (f a).toOption := by
  cases x <;> rfl

theorem toOption_map {ε α β : Type} (x : Except ε α) (f : α → β) :
    (x.map f).toOption = x.toOption.map f := by
  cases x <;> rfl

/-! ## Keys -/

/-- Writing under one text leaves what is found under another. -/
theorem get?_put_text {a b : String} (differ : a ≠ b) (entries : Entries) (v : Value) :
    (entries.put (.text a) v).get? (.text b) = entries.get? (.text b) :=
  Entries.get?_put_of_ne rfl rfl (fun same => differ (Identity.text.inj same)) entries v

theorem get?_put_text_self (a : String) (entries : Entries) (v : Value) :
    (entries.put (.text a) v).get? (.text a) = some v :=
  Entries.get?_put_self rfl entries v

theorem option?_congr {before after : Entries} {name : String}
    (same : after.get? (.text name) = before.get? (.text name)) :
    after.option? name = before.option? name := by
  rw [Entries.option?, Entries.option?, same]

theorem get?_inDocument {entries : Entries} (document : EntriesInDocument entries) {n v : Value}
    (found : entries.get? n = some v) : v.IsDocument := by
  induction entries with
  | nil => cases found
  | cons e rest ih =>
      obtain ⟨k, own⟩ := e
      rw [EntriesInDocument] at document
      rw [Entries.get?] at found
      split at found
      · exact Option.some.inj found ▸ document.1
      · exact ih document.2 found

theorem option?_inDocument {entries : Entries} (document : EntriesInDocument entries)
    {name : String} {v : Value} (found : entries.option? name = some v) : v.IsDocument :=
  get?_inDocument document ((Declaration.option?_eq_some_iff entries name v).mp found).1

/-! ## Entries that are read one after the other -/

/-- What is read is added at the end, where the keys are new. -/
theorem readEntries_append (inner : Bool) {entries : List (Value × Value)}
    (keyed : Entries.TextKeyed entries) {done : Entries}
    (fresh : ∀ e ∈ entries, done.get? e.1 = none) :
    readEntries order inner entries done =
      (readEntries order inner entries []).map (done ++ ·) := by
  induction entries generalizing done with
  | nil => simp [readEntries, Except.map]
  | cons e rest ih =>
      obtain ⟨k, v⟩ := e
      obtain ⟨name, rfl⟩ := keyed.texts _ List.mem_cons_self
      have later := fun e mem => fresh e (List.mem_cons_of_mem _ mem)
      rw [readEntries, readEntries]
      split
      · exact ih keyed.tail later
      · dsimp only [Value.shown]
        cases readEntry order (.text name) v with
        | error e => rfl
        | ok entry =>
            have new := fresh _ List.mem_cons_self
            have freshRest (before : Entries) (absent : ∀ e ∈ rest, before.get? e.1 = none) :
                ∀ e ∈ rest, Entries.get? (before ++ [(Value.text name, entry)]) e.1 = none := by
              intro e mem
              have differ := keyed.head_ne e mem
              simp only at differ
              rw [Entries.get?_append, absent e mem, Entries.get?, differ]
              rfl
            simp only [bind, Except.bind]
            rw [Entries.put_of_get?_none new, ih keyed.tail (freshRest done later),
              Entries.put_of_get?_none rfl, ih keyed.tail (freshRest [] fun _ _ => rfl)]
            cases readEntries order inner rest [] <;> simp [Except.map]

/-- The first entry is passed over, or what it is read as comes first. -/
theorem readEntries_cons (inner : Bool) {name : String} {v : Value} {rest : List (Value × Value)}
    (keyed : Entries.TextKeyed ((.text name, v) :: rest)) :
    readEntries order inner ((.text name, v) :: rest) [] =
      if inner && isMetaKey (.text name) then readEntries order inner rest []
      else do
        let entry ← readEntry order (.text name) v
        let others ← readEntries order inner rest []
        return (.text name, entry) :: others := by
  rw [readEntries]
  split
  · rfl
  · dsimp only [Value.shown]
    cases readEntry order (.text name) v with
    | error e => rfl
    | ok entry =>
        simp only [bind, Except.bind]
        rw [Entries.put_of_get?_none rfl, readEntries_append inner keyed.tail]
        · cases readEntries order inner rest [] <;> rfl
        · intro e mem
          have differ := keyed.head_ne e mem
          simp only at differ
          rw [List.nil_append, Entries.get?, differ]
          rfl

/-! ## The keys about a property -/

/-- A key that equals a text is about the property if the text is. -/
theorem isMetaKey_congr {k : Value} {name : String} (same : k.equal (.text name) = true) :
    isMetaKey k = isMetaKey (.text name) := by
  have isText : k.identity? = some (.text name) :=
    (Value.equal_iff_of_identity?_right rfl k).mp same
  have both (n : String) : k.equal (.text n) = (Value.text name).equal (.text n) := by
    rw [Bool.eq_iff_iff, Value.equal_iff_of_identity?_right rfl k,
      Value.equal_iff_of_identity?_right rfl (.text name), isText]
    rfl
  rw [isMetaKey, isMetaKey, both, both]

/-- A key that is shown like one about a property is one. -/
theorem isMetaKey_of_shown {k : Value} (about : isMetaKey (.text k.shown) = true) :
    isMetaKey k = true := by
  have own {word : String} (lower : word.toList.all Char.isLower = true) (notNan : word ≠ "nan")
      (notInf : word ≠ "inf") (same : (Value.text k.shown).equal (.text word) = true) :
      k.equal (.text word) = true := by
    rw [Value.text_equal_text] at same
    rw [Value.eq_text_of_shown lower notNan notInf same, Value.text_equal_text]
  rw [isMetaKey, Bool.or_eq_true] at about ⊢
  rcases about with required | custom
  · exact .inl (own (by decide) (by decide) (by decide) required)
  · exact .inr (own (by decide) (by decide) (by decide) custom)

/-- A key that is shown like that of a type is that key. -/
theorem equal_typeKey_of_shown {k : Value} (same : (Value.text k.shown).equal typeKey = true) :
    k.equal typeKey = true := by
  rw [typeKey, Value.text_equal_text] at same
  rw [Value.eq_text_of_shown (by decide) (by decide) (by decide) same]
  rfl

/-- The keys that are read were there before, or are those of the entries that are not passed
over. -/
theorem mem_keys_of_readEntries {inner : Bool} {entries : List (Value × Value)}
    {done read : Entries} (outcome : readEntries order inner entries done = .ok read) {key : Value}
    (mem : key ∈ read.keys) : key ∈ done.keys ∨
      ∃ e ∈ entries, (inner && isMetaKey e.1) = false ∧ key = .text e.1.shown := by
  induction entries generalizing done with
  | nil =>
      cases outcome
      exact .inl mem
  | cons e rest ih =>
      obtain ⟨k, v⟩ := e
      rw [readEntries] at outcome
      have later {done : Entries} (outcome : readEntries order inner rest done = .ok read) :
          key ∈ done.keys ∨ ∃ e ∈ (k, v) :: rest, (inner && isMetaKey e.1) = false ∧
            key = .text e.1.shown :=
        (ih outcome).imp_right fun ⟨e, own, kept⟩ => ⟨e, List.mem_cons_of_mem _ own, kept⟩
      split at outcome
      next => exact later outcome
      next kept =>
        obtain ⟨entry, -, outcome⟩ := bind_eq_ok.mp outcome
        rcases later outcome with written | others
        · rw [Entries.keys_put] at written
          split at written
          · exact .inl written
          · rcases List.mem_append.mp written with own | last
            · exact .inl own
            · exact .inr ⟨(k, v), List.mem_cons_self, by simpa using kept,
                List.mem_singleton.mp last⟩
        · exact .inr others

/-- What is read of a nested declaration has no key about the property and, if the declaration has
no type, none either. -/
theorem nested_keys {entries read : Entries} (untyped : entries.get? typeKey = none)
    (outcome : readEntries order true entries [] = .ok read) :
    (∀ e ∈ read, isMetaKey e.1 = false) ∧ read.get? typeKey = none := by
  have source {e : Value × Value} (mem : e ∈ read) :
      ∃ f ∈ entries, isMetaKey f.1 = false ∧ e.1 = .text f.1.shown := by
    rcases mem_keys_of_readEntries outcome (List.mem_map_of_mem mem) with none | own
    · cases none
    · exact own
  constructor
  · intro e mem
    obtain ⟨f, -, kept, key⟩ := source mem
    rw [key, Bool.eq_false_iff]
    intro about
    rw [isMetaKey_of_shown about] at kept
    cases kept
  · rw [Entries.get?_eq_none_iff]
    intro e mem
    obtain ⟨f, own, -, key⟩ := source mem
    rw [key, Bool.eq_false_iff]
    intro same
    have differ := (Entries.get?_eq_none_iff entries typeKey).mp untyped f own
    rw [equal_typeKey_of_shown same] at differ
    cases differ

/-- The keys about a property are passed over when its declaration is compiled. -/
theorem compileEntries_put_meta {name : String} (about : isMetaKey (.text name) = true)
    (entries : Entries) (v : Value) :
    compileEntries true (entries.put (.text name) v) = compileEntries true entries := by
  have passed : (true && isMetaKey (.text name)) = true := about
  induction entries with
  | nil => simp only [Entries.put, compileEntries, passed, if_true]
  | cons e rest ih =>
      obtain ⟨k, old⟩ := e
      rw [Entries.put]
      split
      next same =>
        have passedToo : (true && isMetaKey k) = true := (isMetaKey_congr same).trans about
        rw [compileEntries, compileEntries, if_pos passedToo, if_pos passedToo]
      · rw [compileEntries, compileEntries, ih]

/-- Moving the keys about a property to the end leaves the rules of its declaration. -/
theorem compileEntries_appendMeta (about : ∀ name ∈ order, isMetaKey (.text name) = true)
    (source read : Entries) :
    compileEntries true (appendMeta order source read) = compileEntries true read := by
  induction order generalizing read with
  | nil => rfl
  | cons name rest ih =>
      have later := ih fun n mem => about n (List.mem_cons_of_mem name mem)
      simp only [appendMeta, List.foldl_cons] at later ⊢
      rw [later]
      split
      · exact compileEntries_put_meta (about name List.mem_cons_self) read _
      · rfl

/-- What stands under a text after the keys about a property were moved to the end. -/
theorem get?_appendMeta (source read : Entries) (name : String) :
    (appendMeta order source read).get? (.text name) =
      if name ∈ order then (source.get? (.text name)).or (read.get? (.text name))
      else read.get? (.text name) := by
  induction order generalizing read with
  | nil => rfl
  | cons first rest ih =>
      have step : (appendMeta (first :: rest) source read) =
          appendMeta rest source
            ((source.get? (.text first)).elim read (read.put (.text first))) := by
        rw [appendMeta, List.foldl_cons]
        cases source.get? (.text first) <;> rfl
      rw [step, ih]
      by_cases same : first = name
      · subst same
        cases source.get? (.text first) <;> simp [get?_put_text_self]
      · cases source.get? (.text first) <;>
          simp [get?_put_text same, List.mem_cons, Ne.symm same]

/-! ## Types -/

/-- The name of a type is compiled to what it stands for. -/
theorem typeToken_compile (name : String) (key : Value) :
    (typeToken name key >>= compileType key).toOption = namedTypes.lookup name := by
  by_cases known : (namedTypes.lookup name).isSome = true
  · rw [List.lookup_isSome_iff] at known
    obtain ⟨⟨own, type⟩, mem, same⟩ := known
    obtain rfl := beq_iff_eq.mp same
    simp only [namedTypes, List.mem_cons, Prod.mk.injEq, List.not_mem_nil, or_false] at mem
    rcases mem with ⟨rfl, -⟩ | ⟨rfl, -⟩ | ⟨rfl, -⟩ | ⟨rfl, -⟩ | ⟨rfl, -⟩ | ⟨rfl, -⟩ | ⟨rfl, -⟩ |
      ⟨rfl, -⟩ | ⟨rfl, -⟩ | ⟨rfl, -⟩ <;> rfl
  · rw [Bool.not_eq_true, Option.isSome_eq_false_iff, Option.isNone_iff_eq_none] at known
    have differ := List.lookup_eq_none_iff.mp known
    simp only [namedTypes, List.forall_mem_cons, List.not_mem_nil, false_imp_iff, implies_true,
      and_true, bne_iff_ne] at differ
    have unnamed : typeNames.lookup name = none :=
      List.lookup_eq_none_iff.mpr (by simp [typeNames, differ])
    have unknown : typeToken name key = .error (.unsupportedType key name) := by
      simp [typeToken, Declaration.keywordType?, Scalar.label, unnamed, differ]
    rw [known, unknown]
    rfl

/-- Reading keeps the number of item types. -/
theorem length_of_readTypes {items types : List Value}
    (outcome : readTypes order key items = .ok types) : types.length = items.length := by
  induction items generalizing types with
  | nil =>
      cases outcome
      rfl
  | cons v rest ih =>
      rw [readTypes] at outcome
      obtain ⟨type, -, outcome⟩ := bind_eq_ok.mp outcome
      obtain ⟨others, later, outcome⟩ := bind_eq_ok.mp outcome
      cases outcome
      rw [List.length_cons, List.length_cons, ih later]

/-- An array is declared by its only item type. -/
theorem readTypes_compile {items : List Value}
    (each : ∀ item ∈ items, (readType order key item >>= compileType key).toOption = typeOf? item) :
    (readTypes order key items >>= compileItemType key).toOption = arrayOf? items := by
  match items with
  | [] => rfl
  | [item] =>
      have own := each item List.mem_cons_self
      rw [arrayOf?, ← own, readTypes, readTypes]
      cases readType order key item with
      | error e => rfl
      | ok type =>
          simp only [bind, Except.bind, pure, Except.pure, compileItemType]
          cases compileType key type <;> rfl
  | first :: second :: rest =>
      cases outcome : readTypes order key (first :: second :: rest) with
      | error e => rfl
      | ok types =>
          have length := length_of_readTypes outcome
          match types with
          | _ :: _ :: _ => rfl

/-! ## Rules -/

/-- Nothing in a document can be called. -/
theorem customOf_inDocument {entries : Entries} (inDocument : EntriesInDocument entries) :
    (customOf key ((entries.option? "custom").getD .null)).toOption =
      if (entries.option? "custom").isSome then none else some none := by
  cases found : entries.option? "custom" with
  | none => rfl
  | some v =>
      have present := ((Declaration.option?_eq_some_iff entries "custom" v).mp found).2
      have own := option?_inDocument inDocument found
      cases v <;> first | exact absurd rfl present | rfl | cases own

/-- Options that say the same as those of a document, but for the type, and hold the
pattern that the document has the text of. -/
structure Translated (key : Value) (document options : Entries) : Prop where
  others : ∀ name, name ≠ "type" → name ≠ "regex" →
    options.get? (.text name) = document.get? (.text name)
  pattern : (patternOf key (options.option? "regex")).toOption = patternIn? document
  present : (options.option? "regex").isSome = (document.option? "regex").isSome

namespace Translated

variable {document options : Entries} (translated : Translated key document options)

include translated

theorem option?_eq (name : String) (notType : name ≠ "type") (notPattern : name ≠ "regex") :
    options.option? name = document.option? name :=
  option?_congr (translated.others name notType notPattern)

theorem choices (inDocument : EntriesInDocument document) :
    (choicesOf key (options.option? "enum")).toOption = choicesIn? document := by
  rw [translated.option?_eq _ (by simp) (by simp), choicesIn?]
  cases found : document.option? "enum" with
  | none => rfl
  | some v =>
      have own := option?_inDocument inDocument found
      cases v <;> first | rfl | cases own

theorem bound (bound : Bound) :
    (boundOf key bound options).toOption = boundIn? bound document := by
  have same : options.option? bound.label = document.option? bound.label := by
    cases bound <;> exact translated.option?_eq _ (by simp [Bound.label]) (by simp [Bound.label])
  rw [boundOf, boundIn?, same]
  cases document.option? bound.label with
  | none => rfl
  | some v => cases number : v.number? <;> simp [number, Except.toOption]

theorem custom (inDocument : EntriesInDocument document) :
    (customOf key ((options.option? "custom").getD .null)).toOption =
      if (document.option? "custom").isSome then none else some none := by
  rw [translated.option?_eq _ (by simp) (by simp)]
  exact customOf_inDocument inDocument

/-- The rule of translated options is the one that the document declares. -/
theorem rule (inDocument : EntriesInDocument document) (type : TypeSpec) :
    (ruleOf key type options).toOption = ruleWith? key type document := by
  have choices := translated.choices inDocument
  have custom := translated.custom inDocument
  have enum := translated.option?_eq "enum" (by simp) (by simp)
  unfold ruleWith? ruleOf
  dsimp only
  rw [enum, translated.present]
  split
  next refused =>
    rw [refused, Bool.or_true, if_pos rfl]
    rfl
  next accepted =>
    rw [Bool.not_eq_true] at accepted
    rw [accepted, Bool.or_false]
    rw [enum] at choices
    simp only [toOption_bind, translated.pattern, choices, custom, translated.bound,
      translated.option?_eq "default" (by simp) (by simp),
      translated.option?_eq "message" (by simp) (by simp),
      translated.others "required" (by simp) (by simp)]
    cases document.option? "custom" with
    | none => rfl
    | some v => simp [Option.bind_fun_none]

/-- A rule with translated options and a type is the one that the document declares with
that type. -/
theorem entry (inDocument : EntriesInDocument document) {type : Value}
    (typed : options.get? typeKey = some type) :
    (compileEntry key (.object options)).toOption =
      (compileType key type).toOption.bind fun type => ruleWith? key type document := by
  rw [Declaration.compileEntry_of_type key rfl typed, toOption_bind]
  simp only [translated.rule inDocument]

end Translated

theorem get?_put_type {entries : Entries} (type : Value) {name : String} (differ : name ≠ "type") :
    (entries.put typeKey type).get? (.text name) = entries.get? (.text name) :=
  get?_put_text differ.symm entries type

/-- Options whose pattern is no text are left, but for the type. -/
theorem translated_of_no_text {entries : Entries} (inDocument : EntriesInDocument entries)
    (type : Value) (noText : ∀ source, entries.get? (.text "regex") ≠ some (.text source)) :
    Translated key entries (entries.put typeKey type) := by
  have same : (entries.put typeKey type).option? "regex" = entries.option? "regex" :=
    option?_congr (get?_put_type type (by simp))
  refine ⟨fun name notType _ => get?_put_type type notType, ?_, by rw [same]⟩
  rw [same, patternIn?]
  cases found : entries.option? "regex" with
  | none => rfl
  | some v =>
      have there := ((Declaration.option?_eq_some_iff entries "regex" v).mp found).1
      have own := option?_inDocument inDocument found
      cases v with
      | text source => exact absurd there (noText source)
      | pattern p => cases own
      | _ => rfl

/-- Options whose pattern is a text that can be compiled get the compiled pattern. -/
theorem translated_of_text {entries : Entries} (type : Value) {source : String} {p : Pattern}
    (there : entries.get? (.text "regex") = some (.text source))
    (compiled : Pattern.compile source {} = .ok p) :
    Translated key entries ((entries.put typeKey type).put (.text "regex") (.pattern p)) := by
  have own : ((entries.put typeKey type).put (.text "regex") (.pattern p)).option? "regex" =
      some (.pattern p) := by
    rw [Entries.option?, get?_put_text_self]
  have given : entries.option? "regex" = some (.text source) := by
    rw [Entries.option?, there]
  refine ⟨fun name notType notPattern => ?_, ?_, ?_⟩
  · rw [get?_put_text (Ne.symm notPattern), get?_put_type type notType]
  · rw [own, patternIn?, given]
    simp [patternOf, compiled, Except.toOption]
  · rw [own, given]
    rfl

/-- A rule is read and compiled to the one that its options declare with the type that was
read. -/
theorem readPattern_compile {entries : Entries} (inDocument : EntriesInDocument entries)
    (key type : Value) :
    (readPattern key (entries.put typeKey type) >>= fun options =>
        compileEntry key (.object options)).toOption =
      (compileType key type).toOption.bind fun type => ruleWith? key type entries := by
  have typed : (entries.put typeKey type).get? typeKey = some type := get?_put_text_self _ _ _
  by_cases text : ∃ source, entries.get? (.text "regex") = some (.text source)
  · obtain ⟨source, there⟩ := text
    rw [readPattern, get?_put_type type (by simp), there]
    dsimp only
    cases compiled : Pattern.compile source {} with
    | ok p =>
        refine (translated_of_text type there compiled).entry inDocument ?_
        rw [typeKey, get?_put_text (by simp)]
        exact typed
    | error failure =>
        -- Without its pattern the rule is not declared either.
        have undeclared (type : TypeSpec) : ruleWith? key type entries = none := by
          have none : patternIn? entries = none := by
            rw [patternIn?, Entries.option?, there]
            simp [compiled, Except.toOption]
          simp [ruleWith?, none]
        simp only [undeclared, Option.bind_fun_none]
        cases failure <;> rfl
  · rw [not_exists] at text
    have translated : Translated key entries (entries.put typeKey type) :=
      translated_of_no_text inDocument type text
    rw [readPattern, get?_put_type type (by simp)]
    split
    next source there => exact absurd there (text source)
    next => exact translated.entry inDocument typed

end DataContract.Document
