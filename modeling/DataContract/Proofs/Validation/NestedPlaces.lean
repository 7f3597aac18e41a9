/-
# The places that messages name

A reporter that walks over schema and data with the names of the properties around it can write
each message for the full place, the names joined by points. The run does it another way: it
writes messages for the property alone, and every nested record prefixes what comes from below.
For schemas without custom validators and messages of their own both say the same, in the same
order: prefixing once per level puts each name where it belongs, whatever the names are.
-/

import DataContract.Proofs.Validation.Folding
import DataContract.Proofs.Validation.PropertyReference
import DataContract.Proofs.Validation.Safety

set_option autoImplicit false

namespace DataContract

open Declaration (map_eq_ok bind_eq_ok)

/-- What is said of one property: a text about the property, or the texts about the record in it,
taken together. -/
inductive Said where
  | own (text : String)
  | inner (texts : List String)

/-- The texts of what is said. -/
def Said.texts : Said → List String
  | .own text => [text]
  | .inner texts => texts

/-- The message of what is said. -/
def Said.message : Said → Message
  | .own text => .text text
  | .inner texts => .folded (texts.map .text)

/-- What is said, with each text prefixed. -/
def Said.under (key : Value) : Said → Said
  | .own text => .own (prefixMessage text key)
  | .inner texts => .inner (texts.map (prefixMessage · key))

/-- Something that is said of a property of a record. -/
structure Remark where
  key : Value
  said : Said

namespace Remark

/-- The texts of a remark. -/
def texts (r : Remark) : List String := r.said.texts

/-- The violation that a remark stands for. -/
def violation (r : Remark) : Violation := ⟨r.key, r.said.message⟩

/-- A remark with each text prefixed. -/
def under (key : Value) (r : Remark) : Remark := ⟨r.key, r.said.under key⟩

/-- The remarks about a record taken together, if there are any. -/
def together (remarks : List Remark) : List Said :=
  if remarks.isEmpty then [] else [.inner (remarks.flatMap texts)]

end Remark

/-- The name of a place: the names on the way to it, joined by points. -/
def placeName (place : List Value) : String := joinWith "." (place.map Value.shown)

/-- What is said of the keys that a schema does not declare. -/
def Schema.tellUndeclared (s : Schema) (path : List Value) (entries : Entries) : List Remark :=
  if s.flex then []
  else (entries.keys.filter (!s.declares ·)).map fun key =>
    ⟨key, .own (undeclaredText (.text (placeName (path ++ [key]))))⟩

section

variable [UserCode]

/-- Tells of a mapping by its entries; of data that are no mapping that is all that is said. -/
def Walk.ofRecord (walk : Home → Entries → Store → Visit Entries (List Remark)) :
    Walk (List Remark) := fun v st =>
  match v.home? st with
  | some (home, entries) => (walk home entries st).embed home.value
  | none => Visit.done [⟨.text "", .own notARecordText⟩] v st

mutual

/-- What a reporter says of a value and a schema, at the end of a path of names. -/
def Schema.tell : Schema → List Value → Walk (List Remark)
  | ⟨rules, flex⟩, path =>
    Walk.ofRecord fun home entries st =>
      let s : Schema := ⟨rules, flex⟩
      (tellRules rules path home entries st).map (s.tellUndeclared path entries ++ ·)
  termination_by structural s => s

/-- What it says of a record and some rules, in order. -/
def tellRules : List Rule → List Value → Home → Entries → Store → Visit Entries (List Remark)
  | [], _, _, entries, st => Visit.done [] entries st
  | r :: rest, path, home, entries, st =>
    (r.tell path home entries st).andThen fun found entries st =>
      (tellRules rest path home entries st).map (found ++ ·)
  termination_by structural rules => rules

/-- What it says of a record and one rule: the default is written where a value is missing, and
the place is that of the property. -/
def Rule.tell (r : Rule) (path : List Value) (home : Home) (entries : Entries) (st : Store) :
    Visit Entries (List Remark) :=
  match r with
  | { name, type, required, custom, pattern, min, max, choices, default, message } =>
    let r : Rule :=
      { name, type, required, custom, pattern, min, max, choices, default, message }
    let place := path ++ [name]
    (r.fill home entries st).andThen fun _ entries st =>
      match r.valueIn entries with
      | none =>
        Visit.done (if required then [⟨name, .own (missingText (.text (placeName place)))⟩] else [])
          entries st
      | some v =>
        ((type.tell r place v st).map (·.map (Remark.mk name))).settle
          (home.putBack name v true entries)
  termination_by structural r

/-- What it says of a value at a place that does not have the type of a rule or does not keep to
the rule's bounds. -/
def TypeSpec.tell : TypeSpec → Rule → List Value → Walk (List Said)
  | .scalar kind, r, place, v, st =>
    let texts := r.scalarFailures (.text (placeName place)) kind (st.head v)
    Visit.ofExcept (texts.map (·.map .own)) v st
  | .nested s, _, place, v, st =>
    if !(st.head v).isMapping then
      Visit.done [.own (mismatchText (.text (placeName place)) (st.head v) Scalar.object.label)]
        v st
    else (s.tell place v st).map Remark.together
  | .array none, r, place, v, st =>
    match (st.head v).items? with
    | none =>
      Visit.done [.own (mismatchText (.text (placeName place)) (st.head v) Kind.array.label)] v st
    | some items =>
      Visit.done ((r.lengthFailures (.text (placeName place)) items.length).map .own) v st
  | .array (some item), r, place, v, st =>
    match (st.head v).items? with
    | none =>
      Visit.done [.own (mismatchText (.text (placeName place)) (st.head v) Kind.array.label)] v st
    | some items =>
      (Walk.ofItems item.takes v st).map fun all =>
        (r.lengthFailures (.text (placeName place)) items.length).map .own ++
          (if all then [] else [.own (itemText (.text (placeName place)) item)])
  termination_by structural t => t

end

end

/-! ## Telling in other words -/

/-- A visit does the same as another one, and finds what that finds in other words. -/
structure Visit.Retold {σ α β : Type} (w : Visit σ α) (f : α → β) (w' : Visit σ β) : Prop where
  result : w'.result = w.result.map f
  left : w'.left = w.left
  store : w'.store = w.store

namespace Visit.Retold

variable {σ τ α β γ δ : Type} {w : Visit σ α} {w' : Visit σ β} {f : α → β}

theorem refl (w : Visit σ α) : w.Retold (fun a => a) w :=
  ⟨by cases w.result <;> rfl, rfl, rfl⟩

theorem done {a : α} {b : β} (same : b = f a) (left : σ) (st : Store) :
    (Visit.done a left st).Retold f (Visit.done b left st) :=
  ⟨congrArg Except.ok same, rfl, rfl⟩

theorem ofExcept {result : Except Fault α} {result' : Except Fault β}
    (same : result' = result.map f) (left : σ) (st : Store) :
    (Visit.ofExcept result left st).Retold f (Visit.ofExcept result' left st) :=
  ⟨same, rfl, rfl⟩

theorem embed (retold : w.Retold f w') (part : σ → τ) : (w.embed part).Retold f (w'.embed part) :=
  ⟨retold.result, congrArg part retold.left, retold.store⟩

theorem settle (retold : w.Retold f w') (put : σ → Store → τ × Store) :
    (w.settle put).Retold f (w'.settle put) := by
  refine ⟨retold.result, ?_, ?_⟩
  · rw [Visit.settle, Visit.settle, retold.left, retold.store]
  · rw [Visit.settle, Visit.settle, retold.left, retold.store]

/-- After one and the same part both go on. -/
theorem andThen {f : α → β} (first : Visit σ γ) {next : γ → σ → Store → Visit σ α}
    {next' : γ → σ → Store → Visit σ β}
    (further : ∀ c x st, (next c x st).Retold f (next' c x st)) :
    (first.andThen next).Retold f (first.andThen next') := by
  rw [Visit.andThen, Visit.andThen]
  cases first.result with
  | error fault => exact ⟨rfl, rfl, rfl⟩
  | ok c =>
      have later := further c first.left first.store
      exact ⟨later.result, later.left, later.store⟩

theorem tally (retold : w.Retold f w') (count : β → Tally) : w.Retold f (w'.tally count) := by
  obtain ⟨result, left, store⟩ := w'.tally_same count
  exact ⟨result.trans retold.result, left.trans retold.left, store.trans retold.store⟩

/-- What was found is looked at further on either side. -/
theorem check (retold : w.Retold f w') {next : α → γ} {next' : β → Except Fault δ} {g : γ → δ}
    (same : ∀ a, w.result = .ok a → next' (f a) = .ok (g (next a))) :
    (w.map next).Retold g (w'.check next') := by
  refine ⟨?_, retold.left, retold.store⟩
  rw [Visit.check, Visit.map, retold.result]
  cases found : w.result with
  | error fault => rfl
  | ok a => exact same a found

theorem map (retold : w.Retold f w') {next : α → γ} {next' : β → δ} {g : γ → δ}
    (same : ∀ a, next' (f a) = g (next a)) : (w.map next).Retold g (w'.map next') := by
  refine ⟨?_, retold.left, retold.store⟩
  rw [Visit.map, Visit.map, retold.result]
  cases w.result with
  | error fault => rfl
  | ok a => exact congrArg Except.ok (same a)

/-- Parts that are retold one after the other are retold together. -/
theorem append {f : α → β} {first : Visit σ (List α)} {first' : Visit σ (List β)}
    {next : σ → Store → Visit σ (List α)} {next' : σ → Store → Visit σ (List β)}
    (head : first.Retold (List.map f) first')
    (further : ∀ x st, (next x st).Retold (List.map f) (next' x st)) :
    (first.andThen fun found x st => (next x st).map (found ++ ·)).Retold (List.map f)
      (first'.andThen fun found x st => (next' x st).map (found ++ ·)) := by
  rw [Visit.andThen, Visit.andThen, head.result]
  cases first.result with
  | error fault => exact ⟨rfl, head.left, head.store⟩
  | ok found =>
      rw [head.left, head.store]
      have same (more : List α) : found.map f ++ more.map f = (found ++ more).map f :=
        List.map_append.symm
      have later := (further first.left first.store).map same
      exact ⟨later.result, later.left, later.store⟩

end Visit.Retold

/-! ## Places -/

theorem placeName_singleton (key : Value) : placeName [key] = key.shown := by
  simp [placeName, joinWith]

/-- A longer way to a place prefixes its name. -/
theorem placeName_cons (key : Value) {place : List Value} (named : place ≠ []) :
    placeName (key :: place) = underKey key (placeName place) := by
  cases place with
  | nil => exact absurd rfl named
  | cons next rest => simp [placeName, joinWith, underKey]

theorem Remark.texts_under (key : Value) (remarks : List Remark) :
    (remarks.map (Remark.under key)).flatMap texts =
      (remarks.flatMap texts).map (prefixMessage · key) := by
  rw [List.flatMap_map, List.map_flatMap]
  refine congrArg (List.flatMap · remarks) (funext fun remark => ?_)
  obtain ⟨own, said⟩ := remark
  cases said <;> rfl

theorem Remark.together_under (key : Value) (remarks : List Remark) :
    together (remarks.map (Remark.under key)) = (together remarks).map (Said.under key) := by
  rw [together, together, List.isEmpty_map, texts_under]
  split <;> rfl

/-- Messages that are written for a longer name are prefixed. -/
theorem FollowName.own {messages : String → List String} (follow : FollowName messages)
    (key : Value) (name : String) :
    (messages (underKey key name)).map Said.own =
      ((messages name).map .own).map (Said.under key) := by
  rw [← follow key name, List.map_map, List.map_map]
  rfl

theorem Schema.tellUndeclared_under (s : Schema) (key : Value) (path : List Value)
    (entries : Entries) :
    s.tellUndeclared (key :: path) entries =
      (s.tellUndeclared path entries).map (Remark.under key) := by
  rw [tellUndeclared, tellUndeclared]
  split
  · rfl
  · rw [List.map_map]
    refine congrArg (List.map · _) (funext fun own => ?_)
    have prefixed := refersOnce_undeclared.prefixed key (placeName (path ++ [own]))
    rw [← placeName_cons key (List.append_ne_nil_of_right_ne_nil path (List.cons_ne_nil own []))]
      at prefixed
    exact congrArg (fun text => Remark.mk own (.own text)) prefixed.symm

/-- Of data that are no mapping the same is said everywhere. -/
theorem Walk.ofRecord_under {key : Value}
    {walk walk' : Home → Entries → Store → Visit Entries (List Remark)}
    (each : ∀ home entries st, (walk home entries st).Retold (List.map (Remark.under key))
      (walk' home entries st)) (v : Value) (st : Store) :
    (Walk.ofRecord walk v st).Retold (List.map (Remark.under key)) (Walk.ofRecord walk' v st) := by
  rw [ofRecord, ofRecord]
  split
  next home entries _ => exact (each home entries st).embed _
  · exact .done rfl _ st

section

variable [UserCode]

/-- Applying a rule in a reporter: as in a run, the default is written first. -/
theorem Rule.tell_eq (r : Rule) (path : List Value) (home : Home) (entries : Entries)
    (st : Store) :
    r.tell path home entries st =
      (r.fill home entries st).andThen fun _ entries st =>
        match r.valueIn entries with
        | none =>
          Visit.done
            (if r.required then
                [⟨r.name, .own (missingText (.text (placeName (path ++ [r.name]))))⟩]
              else []) entries st
        | some v =>
          ((r.type.tell r (path ++ [r.name]) v st).map (·.map (Remark.mk r.name))).settle
            (home.putBack r.name v true entries) := by
  obtain ⟨name, type, required, custom, pattern, min, max, choices, default, message⟩ := r
  rfl

/-- What a rule is told at the end of a longer path, if that is so of its type. -/
theorem Rule.tell_under_of_type {r : Rule} {key : Value} {path : List Value}
    (below : ∀ v st, (r.type.tell r (path ++ [r.name]) v st).Retold (List.map (Said.under key))
      (r.type.tell r (key :: (path ++ [r.name])) v st))
    (home : Home) (entries : Entries) (st : Store) :
    (r.tell path home entries st).Retold (List.map (Remark.under key))
      (r.tell (key :: path) home entries st) := by
  have named : path ++ [r.name] ≠ [] :=
    List.append_ne_nil_of_right_ne_nil path (List.cons_ne_nil r.name [])
  rw [r.tell_eq, r.tell_eq]
  refine .andThen _ fun _ entries st => ?_
  split
  · refine .done ?_ _ _
    rw [List.cons_append, placeName_cons key named]
    split
    · exact congrArg (fun text => [Remark.mk r.name (.own text)])
        (refersOnce_missing.prefixed key (placeName (path ++ [r.name]))).symm
    · rfl
  · refine ((below _ _).map fun said => ?_).settle _
    rw [List.map_map, List.map_map]
    rfl

theorem tellRules_under_of_each {rules : List Rule} {key : Value} {path : List Value}
    (each : ∀ r ∈ rules, ∀ home entries st, (r.tell path home entries st).Retold
      (List.map (Remark.under key)) (r.tell (key :: path) home entries st))
    (home : Home) (entries : Entries) (st : Store) :
    (tellRules rules path home entries st).Retold (List.map (Remark.under key))
      (tellRules rules (key :: path) home entries st) := by
  induction rules generalizing entries st with
  | nil => exact .done rfl entries st
  | cons r rest ih =>
      rw [List.forall_mem_cons] at each
      rw [tellRules, tellRules]
      exact (each.1 home entries st).append fun entries st => ih each.2 entries st

/-- What is said at the end of a longer path is what is said at the end of the shorter one, with
each text prefixed. -/
theorem Schema.told_under :
    (∀ (s : Schema) key path v st,
      (s.tell path v st).Retold (List.map (Remark.under key)) (s.tell (key :: path) v st)) ∧
    ∀ (t : TypeSpec) r key place, place ≠ [] → ∀ v st,
      (t.tell r place v st).Retold (List.map (Said.under key)) (t.tell r (key :: place) v st) := by
  have mismatch (key : Value) {place : List Value} (named : place ≠ []) (v : Value)
      (expected : String) :
      [Said.own (mismatchText (.text (placeName (key :: place))) v expected)] =
        [Said.own (mismatchText (.text (placeName place)) v expected)].map (Said.under key) := by
    rw [placeName_cons key named]
    exact (FollowName.singleton (refersOnce_mismatch v expected)).own key (placeName place)
  have lengths (r : Rule) (key : Value) {place : List Value} (named : place ≠ []) (count : Nat) :
      (r.lengthFailures (.text (placeName (key :: place))) count).map Said.own =
        ((r.lengthFailures (.text (placeName place)) count).map Said.own).map (Said.under key) := by
    rw [placeName_cons key named]
    exact (r.followName_length count).own key (placeName place)
  refine Schema.induction ⟨?schema, ?scalar, ?nested, ?untyped, ?array⟩
  case schema =>
    intro s below key path v st
    obtain ⟨rules, flex⟩ := s
    have strangers (entries : Entries) (found : List Remark) :
        Schema.tellUndeclared ⟨rules, flex⟩ (key :: path) entries ++ found.map (Remark.under key) =
          (Schema.tellUndeclared ⟨rules, flex⟩ path entries ++ found).map (Remark.under key) := by
      rw [List.map_append, Schema.tellUndeclared_under]
    have each : ∀ r ∈ rules, ∀ home entries st, (r.tell path home entries st).Retold
        (List.map (Remark.under key)) (r.tell (key :: path) home entries st) := by
      intro r mem
      refine Rule.tell_under_of_type (below r mem r key (path ++ [r.name]) ?_)
      exact List.append_ne_nil_of_right_ne_nil path (List.cons_ne_nil r.name [])
    rw [Schema.tell, Schema.tell]
    refine Walk.ofRecord_under (fun home entries st => ?_) v st
    exact (tellRules_under_of_each each home entries st).map (strangers entries)
  case scalar =>
    intro kind r key place named v st
    rw [TypeSpec.tell, TypeSpec.tell]
    refine .ofExcept ?_ v st
    rw [placeName_cons key named, r.scalarFailures_underKey]
    cases r.scalarFailures (.text (placeName place)) kind (st.head v) with
    | error f => rfl
    | ok texts => simp [Except.map, Said.under, Function.comp_def]
  case nested =>
    intro s below r key place named v st
    rw [TypeSpec.tell, TypeSpec.tell]
    split
    · exact .done (mismatch key named _ _) v st
    · exact (below key place v st).map (Remark.together_under key)
  case untyped =>
    intro r key place named v st
    rw [TypeSpec.tell, TypeSpec.tell]
    split
    · exact .done (mismatch key named _ _) v st
    · exact .done (lengths r key named _) v st
  case array =>
    intro item _ r key place named v st
    rw [TypeSpec.tell, TypeSpec.tell]
    split
    · exact .done (mismatch key named _ _) v st
    · have odd : [Said.own (itemText (.text (placeName (key :: place))) item)] =
          [Said.own (itemText (.text (placeName place)) item)].map (Said.under key) := by
        rw [placeName_cons key named]
        exact (FollowName.singleton (refersOnce_item item)).own key (placeName place)
      refine (Visit.Retold.refl _).map fun all => ?_
      rw [List.map_append, lengths r key named, odd]
      cases all <;> rfl

end

/-! ## What a run says -/

/-- A rule that only has the messages of the library. -/
structure Rule.Wordless (r : Rule) : Prop where
  custom : r.custom = none
  message : r.message = none

/-- A schema of such rules. -/
def Schema.Wordless (s : Schema) : Prop := ∀ r ∈ s.rules, r.Wordless

theorem Remark.flattenMessages_violations (remarks : List Remark) :
    flattenMessages (remarks.map violation) = (remarks.flatMap texts).map .text := by
  rw [flattenMessages, List.flatMap_map, List.map_flatMap]
  refine congrArg (List.flatMap · remarks) (funext fun remark => ?_)
  obtain ⟨key, said⟩ := remark
  cases said <;> rfl

/-- The violations of a nested record are folded into what is said of it from its place. -/
theorem fold_violations (key : Value) (remarks : List Remark) :
    (if (remarks.map Remark.violation).isEmpty then .ok []
      else (foldMessages key (flattenMessages (remarks.map Remark.violation))).map ([·])) =
      (.ok ((Remark.together (remarks.map (Remark.under key))).map Said.message) :
        Except Fault (List Message)) := by
  rw [Remark.flattenMessages_violations, foldMessages_texts, List.isEmpty_map, Remark.together,
    List.isEmpty_map, Remark.texts_under]
  split <;> rfl

/-- Without a message of its own a rule reports what it is told. -/
theorem Rule.reportAll_of_wordless {r : Rule} (wordless : r.Wordless) (st : Store)
    (said : List Said) :
    r.reportAll st (said.map Said.message) =
      .ok ((said.map (Remark.mk r.name)).map Remark.violation) := by
  have reported (s : String) : r.report st s = .ok ⟨r.name, .text s⟩ := by
    rw [report, wordless.message]
    rfl
  induction said with
  | nil => rfl
  | cons first rest ih =>
      rw [reportAll] at ih ⊢
      rw [List.map_cons, List.mapM_cons, ih]
      cases first with
      | own text =>
          dsimp only [Said.message]
          rw [reported]
          rfl
      | inner texts => rfl

/-- At the top, keys that are not declared are named as they are. -/
theorem Schema.undeclared_told (s : Schema) (entries : Entries) :
    s.undeclared entries = (s.tellUndeclared [] entries).map Remark.violation := by
  rw [undeclared, tellUndeclared]
  split
  · rfl
  · rw [List.map_map]
    refine congrArg (List.map · _) (funext fun key => ?_)
    have name : placeName ([] ++ [key]) = key.shown := placeName_singleton key
    simp only [Function.comp, Remark.violation, Said.message, name]
    rfl

section

variable [UserCode]

omit [UserCode] in
/-- A run over a mapping finds what is told, if that is so of its entries. -/
theorem Walk.ofEntries_retold {walk : Home → Entries → Store → Visit Entries (List Remark)}
    {walk' : Home → Entries → Store → Visit Entries (List Violation)}
    (each : ∀ home entries st, (walk home entries st).Retold (List.map Remark.violation)
      (walk' home entries st)) (v : Value) (st : Store) :
    (Walk.ofRecord walk v st).Retold (List.map Remark.violation) (Walk.ofEntries walk' v st) := by
  rw [ofRecord, ofEntries]
  cases v.home? st with
  | none => exact .done rfl v st
  | some found => exact (each found.1 found.2 st).embed _

/-- A rule finds what is told of its property, if that is so of its type. -/
theorem Rule.walk_retold_of_type {r : Rule} (wordless : r.Wordless)
    (below : ∀ v st, (r.type.tell r [r.name] v st).Retold (List.map Said.message)
      (r.type.check r r.name v st))
    (s : Schema) (home : Home) (entries : Entries) (st : Store) :
    (r.tell [] home entries st).Retold (List.map Remark.violation)
      (r.walk s home entries st) := by
  have name : placeName ([] ++ [r.name]) = r.name.shown := placeName_singleton r.name
  rw [r.tell_eq, r.walk_eq]
  refine .andThen _ fun _ entries st => ?_
  cases r.valueIn entries with
  | none =>
      refine .ofExcept ?_ _ _
      rw [name]
      split
      · rw [report, wordless.message]
        rfl
      · rfl
  | some v =>
      simp only [judgeCustom, wordless.custom, Visit.andThen_done, Visit.map_nil_append]
      refine ((below v st).settle (home.putBack r.name v true entries)).check fun said _ => ?_
      exact Rule.reportAll_of_wordless wordless _ said

theorem walkRules_retold_of_each {rules : List Rule} (s : Schema)
    (each : ∀ r ∈ rules, ∀ home entries st, (r.tell [] home entries st).Retold
      (List.map Remark.violation) (r.walk s home entries st))
    (home : Home) (entries : Entries) (st : Store) :
    (tellRules rules [] home entries st).Retold (List.map Remark.violation)
      (walkRules rules s home entries st) := by
  induction rules generalizing entries st with
  | nil => exact .done rfl entries st
  | cons r rest ih =>
      rw [List.forall_mem_cons] at each
      rw [tellRules, walkRules]
      exact (each.1 home entries st).append fun entries st => ih each.2 entries st

/-- A run finds what a reporter tells, in the same order, and leaves the same; so does the check of
a type. -/
theorem Schema.retold :
    (∀ s : Schema, s.Throughout Schema.Wordless → ∀ v st,
      (s.tell [] v st).Retold (List.map Remark.violation) (s.walk v st)) ∧
    ∀ t : TypeSpec, t.Throughout Schema.Wordless → ∀ r key v st,
      (t.tell r [key] v st).Retold (List.map Said.message) (t.check r key v st) := by
  have same (texts : List String) :
      texts.map Message.text = (texts.map Said.own).map Said.message := by
    rw [List.map_map]
    rfl
  refine Schema.induction ⟨?schema, ?scalar, ?nested, ?untyped, ?array⟩
  case schema =>
    intro s below wordless v st
    obtain ⟨rules, flex⟩ := s
    rw [Schema.throughout_iff] at wordless
    have each : ∀ r ∈ rules, ∀ home entries st, (r.tell [] home entries st).Retold
        (List.map Remark.violation) (r.walk ⟨rules, flex⟩ home entries st) :=
      fun r mem => Rule.walk_retold_of_type (wordless.1 r mem)
        (below r mem (wordless.2 r mem) r r.name) ⟨rules, flex⟩
    rw [Schema.tell, Schema.walk]
    refine Walk.ofEntries_retold (fun home entries st => .tally ?_ _) v st
    refine (walkRules_retold_of_each _ each home entries st).map fun remarks => ?_
    rw [Schema.undeclared_told, List.map_append]
  case scalar =>
    intro kind _ r key v st
    rw [TypeSpec.tell, TypeSpec.check]
    refine .ofExcept ?_ v st
    rw [placeName_singleton, r.scalarFailures_shown]
    cases r.scalarFailures key kind (st.head v) with
    | error f => rfl
    | ok texts => exact congrArg Except.ok (same texts)
  case nested =>
    intro s below wordless r key v st
    rw [TypeSpec.tell, TypeSpec.check, placeName_singleton]
    split
    · exact .done rfl v st
    · have walked := below wordless v st
      have under := Schema.told_under.1 s key [] v st
      refine ⟨?_, walked.left.trans under.left.symm, walked.store.trans under.store.symm⟩
      rw [Visit.check, Visit.map, walked.result, under.result]
      cases (s.tell [] v st).result with
      | error f => rfl
      | ok remarks => exact fold_violations key remarks
  case untyped =>
    intro _ r key v st
    rw [TypeSpec.tell, TypeSpec.check, placeName_singleton]
    cases (st.head v).items? with
    | none => exact .done rfl v st
    | some items => exact .done (same _) v st
  case array =>
    intro item _ _ r key v st
    rw [TypeSpec.tell, TypeSpec.check, placeName_singleton]
    cases (st.head v).items? with
    | none => exact .done rfl v st
    | some items =>
        refine (Visit.Retold.refl _).map fun all => ?_
        rw [List.map_append]
        cases all <;> exact congrArg (· ++ _) (same _)

/-! ## Errors at one level -/

/-- What is said of one rule of a record: nothing of a value that may be absent, that a required
one is missing, texts about the value, or all that is said of the record in it, in one remark. -/
inductive Rule.ToldOf (r : Rule) (path : List Value) : List Remark → Prop where
  | absent (free : r.required = false) : r.ToldOf path []
  | missing (required : r.required = true) :
      r.ToldOf path [⟨r.name, .own (missingText (.text (placeName (path ++ [r.name]))))⟩]
  | own (texts : List String) : r.ToldOf path (texts.map fun t => ⟨r.name, .own t⟩)
  | inner {s : Schema} {child : Value} {st : Store} {remarks : List Remark}
      (type : r.type = .nested s) (object : (st.head child).isMapping = true)
      (told : (s.tell (path ++ [r.name]) child st).result = .ok remarks) :
      r.ToldOf path ((Remark.together remarks).map (Remark.mk r.name))

/-- What is said of a value is texts about it, or all that is said of the record that it is. -/
theorem TypeSpec.tell_cases {t : TypeSpec} {r : Rule} {place : List Value} {v : Value} {st : Store}
    {said : List Said} (told : (t.tell r place v st).result = .ok said) :
    (∃ texts : List String, said = texts.map .own) ∨
      ∃ s child st' remarks, t = .nested s ∧ (st'.head child).isMapping = true ∧
        (s.tell place child st').result = .ok remarks ∧ said = Remark.together remarks := by
  cases t with
  | scalar kind =>
      rw [tell] at told
      obtain ⟨texts, -, own⟩ := map_eq_ok.mp told
      exact .inl ⟨texts, own.symm⟩
  | nested s =>
      rw [tell] at told
      split at told
      · cases told
        exact .inl ⟨[_], rfl⟩
      next object =>
        obtain ⟨remarks, inside, together⟩ := map_eq_ok.mp told
        exact .inr ⟨s, _, _, remarks, rfl, by simpa using object, inside, together.symm⟩
  | array item =>
      cases item with
      | none =>
          rw [tell] at told
          split at told <;> cases told
          · exact .inl ⟨[_], rfl⟩
          · exact .inl ⟨_, rfl⟩
      | some item =>
          rw [tell] at told
          split at told
          · cases told
            exact .inl ⟨[_], rfl⟩
          next items array =>
            obtain ⟨all, -, own⟩ := map_eq_ok.mp told
            refine .inl ⟨r.lengthFailures (.text (placeName place)) items.length ++
              (if all then [] else [itemText (.text (placeName place)) item]), ?_⟩
            rw [← own, List.map_append]
            cases all <;> rfl

theorem Rule.toldOf {r : Rule} {path : List Value} {home : Home} {entries : Entries} {st : Store}
    {remarks : List Remark} (told : (r.tell path home entries st).result = .ok remarks) :
    r.ToldOf path remarks := by
  rw [r.tell_eq] at told
  obtain ⟨_, -, told⟩ := Visit.andThen_eq_ok.mp told
  split at told
  · cases told
    split
    · exact .missing ‹_›
    · exact .absent (by simpa using ‹¬r.required = true›)
  · obtain ⟨said, own, rfl⟩ := map_eq_ok.mp told
    rcases TypeSpec.tell_cases own with
      ⟨texts, rfl⟩ | ⟨s, child, st', inside, type, object, below, rfl⟩
    · rw [List.map_map]
      exact .own texts
    · exact .inner type object below

theorem tellRules_toldOf {rules : List Rule} {path : List Value} {home : Home}
    {entries : Entries} {st : Store} {remarks : List Remark}
    (told : (tellRules rules path home entries st).result = .ok remarks) :
    ∃ groups, remarks = groups.flatten ∧
      List.Forall₂ (fun r group => r.ToldOf path group) rules groups := by
  induction rules generalizing entries st remarks with
  | nil =>
      cases told
      exact ⟨[], rfl, .nil⟩
  | cons r rest ih =>
      rw [tellRules, Visit.append_result] at told
      obtain ⟨group, own, told⟩ := bind_eq_ok.mp told
      obtain ⟨others, later, rfl⟩ := map_eq_ok.mp told
      obtain ⟨groups, rfl, all⟩ := ih later
      exact ⟨group :: groups, rfl, .cons (Rule.toldOf own) all⟩

/-- What is said of a mapping: its undeclared keys, and then what is said of each rule. -/
theorem Schema.tell_groups {s : Schema} {path : List Value} {v : Value} {st : Store}
    {entries : Entries} {remarks : List Remark} (record : (st.head v).entries? = some entries)
    (told : (s.tell path v st).result = .ok remarks) :
    ∃ groups, remarks = s.tellUndeclared path entries ++ groups.flatten ∧
      List.Forall₂ (fun r group => r.ToldOf path group) s.rules groups := by
  obtain ⟨rules, flex⟩ := s
  rw [Schema.tell, Walk.ofRecord] at told
  split at told
  next home own found =>
    obtain ⟨-, -, mapping⟩ := Value.home?_spec found
    cases record.symm.trans mapping
    obtain ⟨later, own, rfl⟩ := map_eq_ok.mp told
    obtain ⟨groups, rfl, all⟩ := tellRules_toldOf own
    exact ⟨groups, rfl, all⟩
  next none =>
    rw [(v.home?_eq_none_iff st).mp none] at record
    cases record

/-- For a schema whose rules have no custom validators and no messages of their own, at any depth,
a run over any data says what the reporter says that names full places, in the same order, and
stops where that stops. At the top it says it under the keys there, and of every record in a
property that something is said of it says all in one violation. -/
theorem Schema.validate_names_places {s : Schema} (wordless : s.Throughout Schema.Wordless)
    (v : Value) (st : Store) :
    (s.validate v st).result.map Report.messages =
        (s.tell [] v st).result.map (fun remarks => (remarks.flatMap Remark.texts).map Value.text) ∧
      (s.validate v st).result.map Report.violations =
        (s.tell [] v st).result.map (List.map Remark.violation) ∧
      ∀ entries remarks, (st.head v).entries? = some entries →
        (s.tell [] v st).result = .ok remarks →
        ∃ groups, remarks = s.tellUndeclared [] entries ++ groups.flatten ∧
          List.Forall₂ (fun r group => r.ToldOf [] group) s.rules groups := by
  have walked := (Schema.retold.1 s wordless v st).result
  refine ⟨?_, ?_, ?_⟩
  · rw [Schema.result_validate, walked]
    cases (s.tell [] v st).result with
    | error f => rfl
    | ok remarks => exact congrArg Except.ok (Remark.flattenMessages_violations remarks)
  · rw [Schema.result_validate, walked]
    cases (s.tell [] v st).result <;> rfl
  · exact fun entries remarks record told => Schema.tell_groups record told

end

/-- Records in records, under names that are no words. -/
def placesDeclaration : Value :=
  .object [(.text "a property of", .object [(.int 3, .object
    [(.text "x.y", .callable (.token .integer)), (.text "z", .callable (.token .text))])])]

open WithoutUserCode in
/-- Each name is put into its place, also where it holds a point or the mark that is looked for. -/
theorem validate_names_places_placesDeclaration :
    ∃ s, Declaration.compile placesDeclaration true = .ok s ∧ s.Throughout Schema.Wordless ∧
      (s.validate (.object [(.text "a property of", .object [(.int 3, .object
          [(.text "x.y", .text "1"), (.text "w", .int 0)])])]) Store.empty).result.map
            Report.messages =
        .ok [.text "Property a property of.3.w not valid in schema",
          .text "Property a property of.3.x.y is string, expected number",
          .text "Missing required property a property of.3.z"] := by
  have wordless (s : Schema) (compiled : Declaration.compile placesDeclaration true = .ok s) :
      s.Throughout Schema.Wordless := by
    cases compiled
    have bare {r : Rule} (custom : r.custom = none) (message : r.message = none) : r.Wordless :=
      ⟨custom, message⟩
    refine ⟨?_, ⟨?_, ⟨?_, trivial, trivial, trivial⟩, trivial⟩, trivial⟩
    · exact List.forall_mem_singleton.mpr (bare rfl rfl)
    · exact List.forall_mem_singleton.mpr (bare rfl rfl)
    · exact List.forall_mem_cons.mpr ⟨bare rfl rfl, List.forall_mem_singleton.mpr (bare rfl rfl)⟩
  obtain ⟨s, compiled⟩ : ∃ s, Declaration.compile placesDeclaration true = .ok s := ⟨_, rfl⟩
  refine ⟨s, compiled, wordless s compiled, ?_⟩
  rw [(Schema.validate_names_places (wordless s compiled) _ _).1]
  cases compiled
  rfl

end DataContract
