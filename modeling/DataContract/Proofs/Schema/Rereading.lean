/-
# Reading a declaration that was read

What is read of a document is a declaration, and a declaration can be read too: type tokens,
compiled patterns and keywords stand for themselves, keys are texts already, and the keys about a
property stand at the end of its declaration. So reading once more gives the declaration itself,
whatever the document held. If the keys about properties are written in the other order this time,
they change places at the end of nested declarations, and nothing else changes.

A mapping is told to be a rule or a nested declaration by its keys, and keys become texts. That
no key comes to be one that tells mappings apart rests on how values are shown.
-/

import DataContract.Proofs.Schema.DocumentMeaning

set_option autoImplicit false

namespace DataContract

/-! ## Keys that are texts -/

namespace Entries

variable {entries : Entries}

theorem textKeyed_iff (entries : Entries) :
    entries.TextKeyed ↔ (∀ k ∈ entries.keys, ∃ name, k = .text name) ∧ entries.keys.Nodup := by
  constructor
  · rintro ⟨texts, apart⟩
    exact ⟨List.forall_mem_map.mpr texts, apart⟩
  · rintro ⟨texts, apart⟩
    exact ⟨fun e mem => texts e.1 (List.mem_map_of_mem mem), apart⟩

/-- Writing under a text keeps keys texts, each once. -/
theorem TextKeyed.put (keyed : entries.TextKeyed) (name : String) (v : Value) :
    (entries.put (.text name) v).TextKeyed := by
  rw [textKeyed_iff] at keyed ⊢
  rw [keys_put]
  split
  · exact keyed
  next absent =>
    rw [contains, Option.not_isSome_iff_eq_none, get?_eq_none_iff] at absent
    constructor
    · intro k mem
      rcases List.mem_append.mp mem with own | last
      · exact keyed.1 k own
      · exact ⟨name, List.mem_singleton.mp last⟩
    · refine List.nodup_append.mpr ⟨keyed.2, List.pairwise_singleton _ _, ?_⟩
      rintro k mem _ last rfl
      obtain ⟨e, own, key⟩ := List.mem_map.mp mem
      have differ := absent e own
      rw [key, List.mem_singleton.mp last, Value.equal_self rfl] at differ
      cases differ

/-- After writing under a text, every entry was there before or is the one that was written. -/
theorem TextKeyed.mem_put (keyed : entries.TextKeyed) {name : String} {v : Value}
    {e : Value × Value} (mem : e ∈ entries.put (.text name) v) :
    e ∈ entries ∨ e = (.text name, v) := by
  induction entries with
  | nil => exact .inr (List.mem_singleton.mp mem)
  | cons first rest ih =>
      obtain ⟨k, old⟩ := first
      rw [Entries.put] at mem
      split at mem
      next same =>
        obtain ⟨own, key⟩ := keyed.texts _ List.mem_cons_self
        rw [show k = .text own from key, Value.text_equal_text] at same
        rcases List.mem_cons.mp mem with rfl | kept
        · exact .inr (by rw [show k = .text own from key, same])
        · exact .inl (List.mem_cons_of_mem _ kept)
      next =>
        rcases List.mem_cons.mp mem with rfl | later
        · exact .inl List.mem_cons_self
        · exact (ih keyed.tail later).imp_left (List.mem_cons_of_mem _)

end Entries

namespace Document

open Declaration (bind_eq_ok typeKey isMetaKey)

variable {order order' : List String} {key : Value}

/-! ## The forms of values that are read -/

/-- Rules are read as themselves, under their keys as texts. -/
theorem readEntries_of_rules (inner : Bool) (rules : List Rule) (done : Entries) :
    readEntries order inner (rules.map fun r => (r.name, .rule r)) done =
      .ok (done.putAll (((rules.map fun r => (r.name, Value.rule r)).filter
        fun e => !(inner && isMetaKey e.1)).map fun e => (.text e.1.shown, e.2))) := by
  induction rules generalizing done with
  | nil => rfl
  | cons r rest ih =>
      rw [List.map_cons, readEntries, List.filter_cons]
      cases inner && isMetaKey r.name with
      | true => exact ih done
      | false => exact ih (done.put (.text r.name.shown) (.rule r))

/-- A compiled schema is read as the mapping from its names to its rules. -/
theorem readSchemaEntry_eq (order : List String) (key : Value) (s : Schema) :
    readEntry order key (.object (Value.schemaEntries s)) =
      .ok (.object (readSchemaEntry order s)) := by
  have notText {name : String} {v : Value}
      (found : (Value.schemaEntries s).get? (.text name) = some v) : ∃ r, v = .rule r := by
    obtain ⟨k, mem⟩ := Entries.mem_of_get? found
    obtain ⟨r, -, own⟩ := List.mem_map.mp mem
    exact ⟨r, (congrArg Prod.snd own).symm⟩
  rw [readSchemaEntry, Entries.contains]
  cases typed : (Value.schemaEntries s).get? typeKey with
  | none =>
      have read := @readEntries_of_rules order true s.rules []
      rw [readEntry_of_no_type key typed]
      exact congrArg (· >>= _) read
  | some token =>
      obtain ⟨r, rfl⟩ := notText typed
      have pattern : readPattern key (Value.schemaEntries s) = .ok (Value.schemaEntries s) := by
        rw [readPattern]
        split
        next source found =>
          obtain ⟨r, isRule⟩ := notText found
          cases isRule
        next => rfl
      have type : readType order key (.rule r) = .ok (.rule r) := by
        rw [readType] <;> simp
      rw [readEntry_of_type key typed, type]
      simp only [bind, Except.bind]
      rw [Entries.put_get?_self typed, pattern]
      rfl

/-- Of mappings only the entries are read. -/
theorem read_of_entries {v : Value} {entries : Entries} (mapping : v.entries? = some entries)
    (key : Value) : readEntry order key v = readEntry order key (.object entries) ∧
      readType order key v = readType order key (.object entries) := by
  cases v with
  | object own =>
      cases mapping
      exact ⟨rfl, rfl⟩
  | frozen own =>
      cases mapping
      exact ⟨by rw [readEntry, readEntry], by rw [readType, readType]⟩
  | schema id s =>
      cases mapping
      have all : (Value.schemaEntries s).filter (fun e => !(false && isMetaKey e.1)) =
          Value.schemaEntries s := List.filter_eq_self.mpr fun _ _ => rfl
      have rules := @readEntries_of_rules order false s.rules []
      rw [← Value.schemaEntries, all] at rules
      refine ⟨by rw [readSchemaEntry_eq, readEntry], ?_⟩
      rw [readType, readType, rules]
      rfl
  | _ => cases mapping

/-- A value that is read as it stands. -/
structure IsPassedOn (v : Value) : Prop where
  noText : ∀ s, v ≠ .text s
  noList : ∀ items, v ≠ .list items
  noMapping : v.entries? = none
  unshared : ∀ cell, v ≠ .shared cell

theorem isPassedOn_callable (f : Callable) : IsPassedOn (.callable f) :=
  ⟨nofun, nofun, rfl, nofun⟩

theorem read_of_isPassedOn {v : Value} (passed : IsPassedOn v) (key : Value) :
    readEntry order key v = .ok v ∧ readType order key v = .ok v := by
  obtain ⟨noText, noList, noMapping, unshared⟩ := passed
  cases v with
  | text s => exact (noText s rfl).elim
  | list items => exact (noList items rfl).elim
  | object _ | frozen _ | schema _ _ => cases noMapping
  | shared cell => exact (unshared cell rfl).elim
  | _ => exact ⟨by rw [readEntry] <;> simp, by rw [readType] <;> simp⟩

/-- What is shown of each form of a value, from what holds of its parts, holds of all values. -/
theorem read_induction {holds : Value → Prop} (text : ∀ s, holds (.text s))
    (shared : ∀ cell, holds (.shared cell))
    (list : ∀ items, (∀ v ∈ items, holds v) → holds (.list items))
    (mapping : ∀ v entries, v.entries? = some entries → (∀ e ∈ entries, holds e.2) → holds v)
    (passed : ∀ v, IsPassedOn v → holds v) (v : Value) : holds v := by
  have below (entries : Entries) (smaller : sizeOf entries < sizeOf v) :
      ∀ e ∈ entries, holds e.2 := by
    rintro ⟨k, w⟩ mem
    have := Entries.sizeOf_lt_of_mem mem
    exact read_induction text shared list mapping passed w
  cases v with
  | text s => exact text s
  | shared cell => exact shared cell
  | list items =>
      refine list items fun w mem => ?_
      have := List.sizeOf_lt_of_mem mem
      exact read_induction text shared list mapping passed w
  | object entries => exact mapping _ entries rfl (below entries (by simp))
  | frozen entries => exact mapping _ entries rfl (below entries (by simp))
  | schema id s =>
      refine mapping _ _ rfl fun e mem => ?_
      obtain ⟨r, -, rfl⟩ := List.mem_map.mp mem
      exact passed _ ⟨nofun, nofun, rfl, nofun⟩
  | _ => exact passed _ ⟨nofun, nofun, rfl, nofun⟩
  termination_by sizeOf v

/-! ## Patterns -/

/-- What a pattern is read to is left as it is, and so is the type beside it. -/
theorem readPattern_again {options read : Entries} (outcome : readPattern key options = .ok read) :
    read.get? typeKey = options.get? typeKey ∧ readPattern key read = .ok read := by
  rw [readPattern] at outcome
  split at outcome
  next source found =>
    split at outcome
    next p compiled =>
      cases outcome
      refine ⟨get?_put_text (by decide) options _, ?_⟩
      rw [readPattern, get?_put_text_self]
    next => cases outcome
    next => cases outcome
    next => cases outcome
  next noText =>
    cases outcome
    refine ⟨rfl, ?_⟩
    rw [readPattern]
    split
    next source found => exact (noText source found).elim
    next => rfl

/-- The type beside a pattern does not matter to it. -/
theorem readPattern_put_type {options read : Entries} (outcome : readPattern key options = .ok read)
    (type : Value) : readPattern key (options.put typeKey type) = .ok (read.put typeKey type) := by
  have kept : (options.put typeKey type).get? (.text "regex") = options.get? (.text "regex") :=
    get?_put_type type (by decide)
  rw [readPattern] at outcome ⊢
  rw [kept]
  split at outcome
  next source found =>
    split at outcome
    next p compiled =>
      cases outcome
      rw [Entries.put_comm rfl rfl (fun same => absurd (Identity.text.inj same) (by decide))
        (by rw [found]; rfl)]
    next => cases outcome
    next => cases outcome
    next => cases outcome
  next noText =>
    cases outcome
    rfl

/-! ## Reading again in the same order -/

/-- Whatever is read of a value is read as it stands. -/
structure ReadAgain (order : List String) (v : Value) : Prop where
  entry : ∀ key w, readEntry order key v = .ok w → readEntry order key w = .ok w
  type : ∀ key w, readType order key v = .ok w → readType order key w = .ok w

/-- Entries that are read as they stand: their keys are texts, each once. -/
structure Settled (order : List String) (entries : Entries) : Prop where
  keyed : entries.TextKeyed
  fixed : ∀ e ∈ entries, readEntry order e.1 e.2 = .ok e.2

theorem Settled.put {done : Entries} (settled : Settled order done) {name : String} {v : Value}
    (fixed : readEntry order (.text name) v = .ok v) : Settled order (done.put (.text name) v) where
  keyed := settled.keyed.put name v
  fixed e mem := by
    rcases settled.keyed.mem_put mem with old | rfl
    · exact settled.fixed e old
    · exact fixed

/-- Entries are read to settled ones. -/
theorem readEntries_settled {inner : Bool} {entries : List (Value × Value)}
    (each : ∀ e ∈ entries, ReadAgain order e.2) {done read : Entries} (settled : Settled order done)
    (outcome : readEntries order inner entries done = .ok read) : Settled order read := by
  induction entries generalizing done with
  | nil =>
      cases outcome
      exact settled
  | cons e rest ih =>
      obtain ⟨k, v⟩ := e
      rw [List.forall_mem_cons] at each
      rw [readEntries] at outcome
      split at outcome
      · exact ih each.2 settled outcome
      · obtain ⟨entry, own, outcome⟩ := bind_eq_ok.mp outcome
        exact ih each.2 (settled.put (each.1.entry _ _ own)) outcome

theorem readEntries_settled_new {inner : Bool} {entries : List (Value × Value)}
    (each : ∀ e ∈ entries, ReadAgain order e.2) {read : Entries}
    (outcome : readEntries order inner entries [] = .ok read) : Settled order read :=
  readEntries_settled each ⟨Entries.textKeyed_nil, nofun⟩ outcome

/-- Of entries that are read as they stand all are read that are not passed over. -/
theorem readEntries_of_fixed (inner : Bool) {entries : List (Value × Value)}
    (keyed : Entries.TextKeyed entries)
    (fixed : ∀ e ∈ entries, (inner && isMetaKey e.1) = false → readEntry order e.1 e.2 = .ok e.2) :
    readEntries order inner entries [] =
      .ok (entries.filter fun e => !(inner && isMetaKey e.1)) := by
  induction entries with
  | nil => rfl
  | cons e rest ih =>
      obtain ⟨k, v⟩ := e
      obtain ⟨name, key⟩ := keyed.texts _ List.mem_cons_self
      obtain rfl : k = .text name := key
      rw [List.forall_mem_cons] at fixed
      have later := ih keyed.tail fixed.2
      rw [readEntries_cons inner keyed, List.filter_cons]
      cases passed : inner && isMetaKey (.text name) with
      | true => exact later
      | false =>
          rw [later, fixed.1 passed]
          rfl

theorem Settled.readEntries {entries : Entries} (settled : Settled order entries) :
    Document.readEntries order false entries [] = .ok entries := by
  rw [readEntries_of_fixed false settled.keyed fun e mem _ => settled.fixed e mem]
  exact congrArg Except.ok (List.filter_eq_self.mpr fun _ _ => rfl)

theorem appendMeta_keyed {read : Entries} (keyed : read.TextKeyed)
    (order : List String) (source : Entries) : (appendMeta order source read).TextKeyed := by
  induction order generalizing read with
  | nil => exact keyed
  | cons name rest ih =>
      rw [appendMeta, List.foldl_cons]
      cases source.get? (.text name) with
      | none => exact ih keyed
      | some v => exact ih (keyed.put name v)

/-- A nested declaration that was read is read as it stands. -/
theorem nested_again (either : order.Perm defaultMetaOrder) {entries read : Entries}
    (untyped : entries.get? typeKey = none)
    (outcome : readEntries order true entries [] = .ok read) (settled : Settled order read)
    (key : Value) : readEntry order key (.object (appendMeta order entries read)) =
      .ok (.object (appendMeta order entries read)) := by
  have kept := (nested_keys untyped outcome).1
  obtain ⟨appended, found⟩ := appendMeta_read either entries kept
  have noType := nested_untyped either untyped outcome
  have about {e : Value × Value} (mem : e ∈ metaEntries order entries) : isMetaKey e.1 = true :=
    isMetaKey_of_mem_metaEntries either mem
  have keyed := appendMeta_keyed settled.keyed order entries
  have again : readEntries order true (appendMeta order entries read) [] = .ok read := by
    rw [readEntries_of_fixed true keyed, appended, List.filter_append]
    · have front : read.filter (fun e => !(true && isMetaKey e.1)) = read :=
        List.filter_eq_self.mpr fun e mem => by rw [kept e mem]; rfl
      have back : (metaEntries order entries).filter (fun e => !(true && isMetaKey e.1)) = [] :=
        List.filter_eq_nil_iff.mpr fun e mem => by rw [about mem]; exact Bool.false_ne_true
      rw [front, back, List.append_nil]
    · intro e mem other
      rw [appended] at mem
      rcases List.mem_append.mp mem with own | last
      · exact settled.fixed e own
      · rw [about last] at other
        cases other
  have same : appendMeta order (appendMeta order entries read) read =
      appendMeta order entries read := by
    rw [(appendMeta_read either (appendMeta order entries read) kept).1, metaEntries_congr found,
      appended]
  rw [readEntry_of_no_type key noType, again]
  exact congrArg (fun entries => Except.ok (Value.object entries)) same

theorem readTypes_again {items types : List Value} (each : ∀ v ∈ items, ReadAgain order v)
    (outcome : readTypes order key items = .ok types) : readTypes order key types = .ok types := by
  induction items generalizing types with
  | nil =>
      cases outcome
      rfl
  | cons v rest ih =>
      rw [List.forall_mem_cons] at each
      rw [readTypes] at outcome
      obtain ⟨type, own, outcome⟩ := bind_eq_ok.mp outcome
      obtain ⟨others, later, outcome⟩ := bind_eq_ok.mp outcome
      cases outcome
      rw [readTypes, each.1.type key type own, ih each.2 later]
      rfl

/-- Whatever is read of a value is read as it stands. -/
theorem readAgain (either : order.Perm defaultMetaOrder) (v : Value) : ReadAgain order v := by
  induction v using read_induction with
  | text s =>
      constructor <;> intro key w outcome
      · rw [readEntry] at outcome
        rcases typeToken_cases outcome with ⟨rfl, -⟩ | ⟨t, rfl⟩
        · rwa [readEntry]
        · exact (read_of_isPassedOn (isPassedOn_callable _) key).1
      · rw [readType] at outcome
        rcases typeToken_cases outcome with ⟨rfl, -⟩ | ⟨t, rfl⟩
        · rwa [readType]
        · exact (read_of_isPassedOn (isPassedOn_callable _) key).2
  | shared cell =>
      constructor <;> intro key w outcome
      · rw [readEntry] at outcome
        cases outcome
      · rw [readType] at outcome
        cases outcome
  | list items each =>
      constructor <;> intro key w outcome
      · rw [readEntry] at outcome
        obtain ⟨types, own, outcome⟩ := bind_eq_ok.mp outcome
        cases outcome
        rw [readEntry, readTypes_again each own]
        rfl
      · rw [readType] at outcome
        obtain ⟨types, own, outcome⟩ := bind_eq_ok.mp outcome
        cases outcome
        rw [readType, readTypes_again each own]
        rfl
  | mapping v entries mapping each =>
      constructor <;> intro key w outcome
      · rw [(read_of_entries mapping key).1] at outcome
        cases typed : entries.get? typeKey with
        | some token =>
            rw [readEntry_of_type key typed] at outcome
            obtain ⟨type, own, outcome⟩ := bind_eq_ok.mp outcome
            obtain ⟨options, pattern, outcome⟩ := bind_eq_ok.mp outcome
            cases outcome
            obtain ⟨k, mem⟩ := Entries.mem_of_get? typed
            obtain ⟨beside, again⟩ := readPattern_again pattern
            have found : options.get? typeKey = some type :=
              beside.trans (get?_put_text_self "type" entries type)
            rw [readEntry_of_type key found, (each _ mem).type key type own]
            simp only [bind, Except.bind]
            rw [Entries.put_get?_self found, again]
            rfl
        | none =>
            rw [readEntry_of_no_type key typed] at outcome
            obtain ⟨read, own, outcome⟩ := bind_eq_ok.mp outcome
            cases outcome
            exact nested_again either typed own (readEntries_settled_new each own) key
      · rw [(read_of_entries mapping key).2, readType] at outcome
        obtain ⟨read, own, outcome⟩ := bind_eq_ok.mp outcome
        cases outcome
        rw [readType, (readEntries_settled_new each own).readEntries]
        rfl
  | passed v passed =>
      constructor <;> intro key w outcome
      · rw [(read_of_isPassedOn passed key).1] at outcome
        cases outcome
        exact (read_of_isPassedOn passed key).1
      · rw [(read_of_isPassedOn passed key).2] at outcome
        cases outcome
        exact (read_of_isPassedOn passed key).2

/-! ## Reading with the keys about properties in another order -/

mutual

/-- Two entries of properties that are the same but for the order of the keys about properties at
the end of nested declarations. -/
inductive SameEntry : Value → Value → Prop
  /-- An entry that is a type alone. -/
  | bare {v w : Value} : v.entries? = none → SameType v w → SameEntry v w
  /-- Rules have one type up to that order, and the other options are equal. -/
  | rule {options : Entries} {type other : Value} :
      options.get? typeKey = some type → SameType type other →
      SameEntry (.object options) (.object (options.put typeKey other))
  /-- The keys about a property stand last in a nested declaration, in any order. -/
  | nested {front otherFront back otherBack : Entries} :
      Entries.get? (front ++ back) typeKey = none → SameRecord front otherFront →
      (∀ e ∈ front, isMetaKey e.1 = false) → (∀ e ∈ back, isMetaKey e.1 = true) →
      back.Perm otherBack → SameEntry (.object (front ++ back)) (.object (otherFront ++ otherBack))

/-- Two types that are the same but for that order. -/
inductive SameType : Value → Value → Prop
  | same (v : Value) : SameType v v
  | array {items others : List Value} :
      SameTypes items others → SameType (.list items) (.list others)
  | record {entries others : List (Value × Value)} :
      SameRecord entries others → SameType (.object entries) (.object others)

/-- Types that are the same one by one. -/
inductive SameTypes : List Value → List Value → Prop
  | nil : SameTypes [] []
  | cons {v w : Value} {rest others : List Value} :
      SameType v w → SameTypes rest others → SameTypes (v :: rest) (w :: others)

/-- Declarations with the same keys in the same order, over entries that are the same but for the
order of the keys about properties. -/
inductive SameRecord : List (Value × Value) → List (Value × Value) → Prop
  | nil : SameRecord [] []
  | cons {k v w : Value} {rest others : List (Value × Value)} :
      SameEntry v w → SameRecord rest others → SameRecord ((k, v) :: rest) ((k, w) :: others)

end

theorem SameRecord.put {entries others : List (Value × Value)} (related : SameRecord entries others)
    (k : Value) {v w : Value} (same : SameEntry v w) :
    SameRecord (Entries.put entries k v) (Entries.put others k w) := by
  induction entries generalizing others with
  | nil =>
      cases related
      exact .cons same .nil
  | cons e rest ih =>
      cases related with
      | cons head tail =>
          rw [Entries.put, Entries.put]
          split
          · exact .cons same tail
          · exact .cons head (ih tail)

/-- With the keys about properties in another order the same is read of a value. -/
structure ReadAlike (order order' : List String) (v : Value) : Prop where
  entry : ∀ key w, readEntry order key v = .ok w →
    ∃ w', readEntry order' key v = .ok w' ∧ SameEntry w w'
  type : ∀ key w, readType order key v = .ok w →
    ∃ w', readType order' key v = .ok w' ∧ SameType w w'

theorem readEntries_alike {inner : Bool} {entries : List (Value × Value)}
    (each : ∀ e ∈ entries, ReadAlike order order' e.2) {done other read : Entries}
    (related : SameRecord done other) (outcome : readEntries order inner entries done = .ok read) :
    ∃ read', readEntries order' inner entries other = .ok read' ∧ SameRecord read read' := by
  induction entries generalizing done other with
  | nil =>
      cases outcome
      exact ⟨other, rfl, related⟩
  | cons e rest ih =>
      obtain ⟨k, v⟩ := e
      rw [List.forall_mem_cons] at each
      rw [readEntries] at outcome ⊢
      split at outcome
      next passed =>
        rw [if_pos passed]
        exact ih each.2 related outcome
      next kept =>
        obtain ⟨entry, own, outcome⟩ := bind_eq_ok.mp outcome
        obtain ⟨entry', own', same⟩ := each.1.entry _ _ own
        obtain ⟨read', later, alike⟩ := ih each.2 (related.put _ same) outcome
        refine ⟨read', ?_, alike⟩
        rw [if_neg kept]
        dsimp only
        rw [own']
        exact later

theorem readTypes_alike {items types : List Value} (each : ∀ v ∈ items, ReadAlike order order' v)
    (outcome : readTypes order key items = .ok types) :
    ∃ types', readTypes order' key items = .ok types' ∧ SameTypes types types' := by
  induction items generalizing types with
  | nil =>
      cases outcome
      exact ⟨[], rfl, .nil⟩
  | cons v rest ih =>
      rw [List.forall_mem_cons] at each
      rw [readTypes] at outcome ⊢
      obtain ⟨type, own, outcome⟩ := bind_eq_ok.mp outcome
      obtain ⟨others, later, outcome⟩ := bind_eq_ok.mp outcome
      cases outcome
      obtain ⟨type', own', same⟩ := each.1.type key type own
      obtain ⟨others', later', alike⟩ := ih each.2 later
      exact ⟨type' :: others', by rw [own', later']; rfl, .cons same alike⟩

theorem readAlike (either : order.Perm defaultMetaOrder) (either' : order'.Perm defaultMetaOrder)
    (v : Value) : ReadAlike order order' v := by
  induction v using read_induction with
  | text s =>
      constructor <;> intro key w outcome
      · rw [readEntry] at outcome ⊢
        rcases typeToken_cases outcome with ⟨rfl, -⟩ | ⟨t, rfl⟩ <;>
          exact ⟨_, outcome, .bare rfl (.same _)⟩
      · rw [readType] at outcome ⊢
        exact ⟨w, outcome, .same w⟩
  | shared cell =>
      constructor <;> intro key w outcome
      · rw [readEntry] at outcome
        cases outcome
      · rw [readType] at outcome
        cases outcome
  | list items each =>
      constructor <;> intro key w outcome
      · rw [readEntry] at outcome ⊢
        obtain ⟨types, own, outcome⟩ := bind_eq_ok.mp outcome
        cases outcome
        obtain ⟨types', own', alike⟩ := readTypes_alike each own
        exact ⟨.list types', by rw [own']; rfl, .bare rfl (.array alike)⟩
      · rw [readType] at outcome ⊢
        obtain ⟨types, own, outcome⟩ := bind_eq_ok.mp outcome
        cases outcome
        obtain ⟨types', own', alike⟩ := readTypes_alike each own
        exact ⟨.list types', by rw [own']; rfl, .array alike⟩
  | mapping v entries mapping each =>
      constructor <;> intro key w outcome
      · rw [(read_of_entries mapping key).1] at outcome ⊢
        cases typed : entries.get? typeKey with
        | some token =>
            rw [readEntry_of_type key typed] at outcome ⊢
            obtain ⟨type, own, outcome⟩ := bind_eq_ok.mp outcome
            obtain ⟨options, pattern, outcome⟩ := bind_eq_ok.mp outcome
            cases outcome
            obtain ⟨k, mem⟩ := Entries.mem_of_get? typed
            obtain ⟨type', own', same⟩ := (each _ mem).type key type own
            have found : options.get? typeKey = some type :=
              (readPattern_again pattern).1.trans (get?_put_text_self "type" entries type)
            have pattern' := readPattern_put_type pattern type'
            rw [Entries.put_put rfl] at pattern'
            refine ⟨_, ?_, .rule found same⟩
            rw [own']
            simp only [bind, Except.bind]
            rw [pattern']
            rfl
        | none =>
            rw [readEntry_of_no_type key typed] at outcome ⊢
            obtain ⟨read, own, outcome⟩ := bind_eq_ok.mp outcome
            cases outcome
            obtain ⟨read', own', alike⟩ := readEntries_alike each .nil own
            have kept := (nested_keys typed own).1
            have appended := (appendMeta_read either entries kept).1
            have appended' := (appendMeta_read either' entries (nested_keys typed own').1).1
            have noType := nested_untyped either typed own
            refine ⟨.object (appendMeta order' entries read'), by rw [own']; rfl, ?_⟩
            rw [appended] at noType ⊢
            rw [appended']
            exact .nested noType alike kept
              (fun e mem => isMetaKey_of_mem_metaEntries either mem)
              ((either.trans either'.symm).filterMap _)
      · rw [(read_of_entries mapping key).2, readType] at outcome ⊢
        obtain ⟨read, own, outcome⟩ := bind_eq_ok.mp outcome
        cases outcome
        obtain ⟨read', own', alike⟩ := readEntries_alike each .nil own
        exact ⟨.object read', by rw [own']; rfl, .record alike⟩
  | passed v passed =>
      constructor <;> intro key w outcome
      · rw [(read_of_isPassedOn passed key).1] at outcome ⊢
        cases outcome
        exact ⟨v, rfl, .bare passed.noMapping (.same v)⟩
      · rw [(read_of_isPassedOn passed key).2] at outcome ⊢
        cases outcome
        exact ⟨v, rfl, .same v⟩

/-- Whatever a document holds, the declaration that is read of it is read as it stands. If the keys
about properties are written in another order than before, the same is read but for their order at
the end of nested declarations. -/
theorem parse_again (either : order.Perm defaultMetaOrder) (either' : order'.Perm defaultMetaOrder)
    {raw : Value} {declaration : Entries} (parsed : parse order raw = .ok declaration) :
    parse order (.object declaration) = .ok declaration ∧
      ∃ again, parse order' (.object declaration) = .ok again ∧ SameRecord declaration again := by
  rw [parse] at parsed
  split at parsed
  next entries _ =>
    have settled : Settled order declaration :=
      readEntries_settled_new (fun e _ => readAgain either e.2) parsed
    exact ⟨settled.readEntries, readEntries_alike (fun e _ => readAlike either either' e.2) .nil
      settled.readEntries⟩
  next => cases parsed

/-- A document with a number for a key and a nested declaration whose keys about the property stand
anywhere. -/
def cargoDocument : Entries :=
  [(.int 7, .text "uuid/v4"),
    (.text "crew", .object [(.text "custom", .null), (.text "name", .object
      [(.text "type", .text "string"), (.text "min", .int 2)]),
      (.text "required", .bool true), (.text "ages", .list [.text "integer"])])]

/-- The keys of what is declared of the crew. -/
def crewKeys (declaration : Entries) : Option (List Value) :=
  ((declaration.get? (.text "crew")).bind Value.entries?).map Entries.keys

/-- The cargo is read to a declaration that is read as it stands; with the keys about the crew in
the other order they change places. -/
theorem parse_again_cargo : ∃ declaration again,
    parse defaultMetaOrder (.object cargoDocument) = .ok declaration ∧
      parse defaultMetaOrder (.object declaration) = .ok declaration ∧
      parse ["custom", "required"] (.object declaration) = .ok again ∧
      SameRecord declaration again ∧
      crewKeys declaration =
        some [.text "name", .text "ages", .text "required", .text "custom"] ∧
      crewKeys again = some [.text "name", .text "ages", .text "custom", .text "required"] := by
  obtain ⟨declaration, parsed⟩ : ∃ declaration,
      parse defaultMetaOrder (.object cargoDocument) = .ok declaration := ⟨_, rfl⟩
  obtain ⟨same, again, other, related⟩ :=
    parse_again (.refl _) (.swap "required" "custom" []) parsed
  refine ⟨declaration, again, parsed, same, other, related, ?_⟩
  cases parsed
  cases other
  exact ⟨rfl, rfl⟩

end Document

end DataContract
