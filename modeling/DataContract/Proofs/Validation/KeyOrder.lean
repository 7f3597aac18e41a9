/-
# The order of keys in data

A run goes by the rules of a schema and looks the properties up by their names, so the
order in which mappings hold their keys is lost on it, with two exceptions: undeclared
keys are reported in the order of the mapping, and what a nested record reports is folded
in that order. Two runs over trees that are the same up to the order of keys are compared
part by part: they leave such trees again, and they report the same up to the order of
the undeclared keys at each level. Ordered bodies of valid data have one order for both,
that of the rules, as far as undeclared keys are refused or dropped.
-/

import DataContract.Proofs.Validation.Folding
import DataContract.Proofs.Validation.SideBySide
import DataContract.Proofs.Validation.Strictness
import DataContract.Proofs.Value.Reordering

set_option autoImplicit false

namespace DataContract

/-- A schema whose names can be told apart, with neither custom validators nor producers of
defaults. -/
structure Schema.Literal (s : Schema) : Prop where
  names : s.NamesApart
  custom : s.WithoutCustom
  defaults : ∀ r ∈ s.rules, ∀ f, r.default ≠ some (.callable f)

/-- Two failures, whichever they are. -/
def AnyFaults (_ _ : Fault) : Prop := True

/-- Two messages that say the same, up to the order of what was folded. -/
def Message.Reordered : Message → Message → Prop
  | .text s, .text t => t = s
  | .folded parts, .folded others => parts.Perm others
  | _, _ => False

/-- Two violations of one key that say the same, up to the order of what was folded. -/
structure Violation.Reordered (x y : Violation) : Prop where
  key : y.key = x.key
  message : x.message.Reordered y.message

theorem Message.Reordered.refl (m : Message) : m.Reordered m := by
  cases m with
  | text s => rfl
  | folded parts => exact List.Perm.refl parts

theorem Violation.Reordered.refl (x : Violation) : x.Reordered x := ⟨rfl, .refl x.message⟩

/-- What two runs of a schema find: violations of keys that it does not declare, in any order, and
after them the others at the same places. -/
structure Schema.FoundReordered (s : Schema) (xs ys : List Violation) : Prop where
  parts : ∃ first first' later later', xs = first ++ later ∧ ys = first' ++ later' ∧
    first.Perm first' ∧ (∀ x ∈ first, s.declares x.key = false) ∧
    List.Forall₂ Violation.Reordered later later'

theorem flattenMessages_reordered {xs ys : List Violation}
    (related : List.Forall₂ Violation.Reordered xs ys) :
    (flattenMessages xs).Perm (flattenMessages ys) := by
  induction related with
  | nil => exact .refl _
  | @cons x y _ _ head _ ih =>
      have own : x.messages.Perm y.messages := by
        obtain ⟨key, m⟩ := x
        obtain ⟨key', n⟩ := y
        have said : m.Reordered n := head.message
        cases m <;> cases n
        · cases said
          exact .refl _
        · cases said
        · cases said
        · exact said
      exact own.append ih

theorem filter_reordered {p : Value → Bool} {xs ys : List Violation}
    (related : List.Forall₂ Violation.Reordered xs ys) :
    List.Forall₂ Violation.Reordered (xs.filter (p ·.key)) (ys.filter (p ·.key)) := by
  induction related with
  | nil => exact .nil
  | cons head _ ih =>
      rw [List.filter_cons, List.filter_cons, head.key]
      split
      · exact .cons head ih
      · exact ih

namespace Schema.FoundReordered

theorem refl (s : Schema) (xs : List Violation) : s.FoundReordered xs xs :=
  ⟨[], [], xs, xs, rfl, rfl, .refl _, nofun, List.forall₂_same.mpr fun x _ => .refl x⟩

variable {s : Schema} {xs ys : List Violation}

theorem messages (related : s.FoundReordered xs ys) :
    (flattenMessages xs).Perm (flattenMessages ys) := by
  obtain ⟨first, first', later, later', rfl, rfl, perm, -, same⟩ := related
  rw [flattenMessages, flattenMessages, List.flatMap_append, List.flatMap_append]
  exact (perm.flatMap_right _).append (flattenMessages_reordered same)

theorem isEmpty (related : s.FoundReordered xs ys) : ys.isEmpty = xs.isEmpty := by
  obtain ⟨first, first', later, later', rfl, rfl, perm, -, same⟩ := related
  have length : (first' ++ later').length = (first ++ later).length := by
    rw [List.length_append, List.length_append, perm.length_eq, same.length_eq]
  rw [Bool.eq_iff_iff, List.isEmpty_iff_length_eq_zero, List.isEmpty_iff_length_eq_zero, length]

/-- The violations of declared keys are found at the same places. -/
theorem declared (related : s.FoundReordered xs ys) :
    List.Forall₂ Violation.Reordered (xs.filter (s.declares ·.key))
      (ys.filter (s.declares ·.key)) := by
  obtain ⟨first, first', later, later', rfl, rfl, perm, undeclared, same⟩ := related
  have none : first.filter (s.declares ·.key) = [] := by
    rw [List.filter_eq_nil_iff]
    intro x mem
    rw [undeclared x mem]
    exact Bool.false_ne_true
  have none' : first'.filter (s.declares ·.key) = [] := by
    have same := perm.filter (s.declares ·.key)
    rw [none] at same
    exact same.nil_eq.symm
  rw [List.filter_append, List.filter_append, none, none']
  exact filter_reordered same

end Schema.FoundReordered

/-! ## Folding in another order -/

theorem Paired.trans_perm {α : Type} {x y z : Except Fault (List α)}
    (first : Paired AnyFaults List.Perm x y) (second : Paired AnyFaults List.Perm y z) :
    Paired AnyFaults List.Perm x z := by
  cases first with
  | error _ =>
      cases second with
      | error _ => exact .error trivial
  | ok perm =>
      cases second with
      | ok perm' => exact .ok (perm.trans perm')

/-- The order of elements decides about the order of what they become, and about which of them is
the first to fail. -/
theorem mapM_perm {α β : Type} {f : α → Except Fault β} {items others : List α}
    (perm : items.Perm others) : Paired AnyFaults List.Perm (items.mapM f) (others.mapM f) := by
  induction perm with
  | nil => exact .ok .nil
  | cons a _ ih =>
      rw [List.mapM_cons, List.mapM_cons]
      cases f a with
      | error fault => exact .error trivial
      | ok b => exact ih.map fun _ _ same => same.cons b
  | swap a b rest =>
      rw [List.mapM_cons, List.mapM_cons, List.mapM_cons, List.mapM_cons]
      cases f a with
      | error fault => cases f b <;> exact .error trivial
      | ok _ =>
          cases f b with
          | error fault => exact .error trivial
          | ok _ =>
              cases rest.mapM f with
              | error fault => exact .error trivial
              | ok _ => exact .ok (.swap _ _ _)
  | trans _ _ ih ih' => exact ih.trans_perm ih'

theorem foldMessages_perm (key : Value) {messages others : List Value}
    (perm : messages.Perm others) :
    Paired AnyFaults Message.Reordered (foldMessages key messages) (foldMessages key others) :=
  (mapM_perm perm).map fun _ _ same => same

/-! ## Rules -/

namespace Value.Reordered

variable {v w : Value} (related : v.Reordered w)

include related

theorem isMapping : w.isMapping = v.isMapping := by
  cases (reordered_iff v w).mp related <;> rfl

theorem isArray : w.isArray = v.isArray := by
  cases (reordered_iff v w).mp related <;> rfl

theorem category : w.category = v.category := by
  cases (reordered_iff v w).mp related <;> rfl

theorem mismatchText_eq (key : Value) (label : String) :
    mismatchText key w label = mismatchText key v label := by
  rw [mismatchText, mismatchText, related.category]

theorem items? : Option.Rel (List.Forall₂ Value.Reordered) v.items? w.items? := by
  cases (reordered_iff v w).mp related with
  | list each => exact .some each
  | tuple each => exact .some each
  | object _ => exact .none
  | frozen _ => exact .none
  | leaf own =>
      cases v with
      | list _ | tuple _ => cases own
      | _ => exact .none

theorem fits (kind : Scalar) : kind.fits w = kind.fits v := by
  cases (reordered_iff v w).mp related with
  | leaf own => rfl
  | _ => cases kind <;> rfl

theorem scalarFailures (r : Rule) (key : Value) (kind : Scalar) :
    r.scalarFailures key kind w = r.scalarFailures key kind v := by
  cases (reordered_iff v w).mp related with
  | leaf own => rfl
  | _ => cases kind <;> rfl

theorem entries? : Option.Rel Entries.Reordered v.entries? w.entries? := by
  cases (reordered_iff v w).mp related with
  | list _ => exact .none
  | tuple _ => exact .none
  | object inner => exact .some inner
  | frozen inner => exact .some inner
  | leaf own apart =>
      cases v with
      | object _ | frozen _ => cases own
      | schema id s =>
          refine .some ⟨apart _ rfl, schemaEntries s, List.forall₂_same.mpr ?_, .refl _⟩
          intro e mem
          obtain ⟨r, -, rfl⟩ := List.mem_map.mp mem
          exact ⟨rfl, rfl⟩
      | _ => exact .none

theorem ne_shared (cell : Nat) : v ≠ .shared cell := by
  rintro rfl
  cases (reordered_iff _ w).mp related with
  | leaf own => cases own

theorem ne_shared_right (cell : Nat) : w ≠ .shared cell := by
  rintro rfl
  cases (reordered_iff v _).mp related with
  | leaf own => cases own

theorem head_eq (st : Store) : st.head v = v := by
  cases v with
  | shared cell => exact (related.ne_shared cell rfl).elim
  | _ => rfl

theorem head_eq_right (st : Store) : st.head w = w := by
  cases w with
  | shared cell => exact (related.ne_shared_right cell rfl).elim
  | _ => rfl

end Value.Reordered

section

variable [UserCode]

namespace Rule

variable {r : Rule} {entries others : Entries}

omit [UserCode] in
theorem valueIn_reordered (known : r.name.identity?.isSome = true)
    (related : entries.Reordered others) :
    Option.Rel Value.Reordered (r.valueIn entries) (r.valueIn others) := by
  have found := related.get? known
  rw [valueIn, valueIn]
  generalize entries.get? r.name = x at found
  generalize others.get? r.name = y at found
  cases found with
  | none => exact .none
  | @some v w same =>
      cases (Value.reordered_iff v w).mp same with
      | leaf own =>
          cases v with
          | null => exact .none
          | _ => exact .some same
      | _ => exact .some same

/-- What is given by default without a producer is a text or a number, or nothing, and no cell
changes. -/
theorem defaultValue_of_literal (literal : ∀ f, r.default ≠ some (.callable f)) (st : Store) :
    ∃ given, r.defaultValue st = (.ok given, st) ∧ ∀ v, given = some v → v.Reordered v := by
  have nothing (v : Value) (given : none = some v) : v.Reordered v := by cases given
  rw [defaultValue]
  cases own : r.default with
  | none => exact ⟨none, rfl, nothing⟩
  | some d =>
      cases d with
      | callable f => exact (literal f own).elim
      | text _ | int _ | float _ =>
          refine ⟨_, rfl, ?_⟩
          rintro v ⟨⟩
          rfl
      | _ => exact ⟨none, rfl, nothing⟩

/-- Without a producer every rule gets to look at its value. -/
theorem producerGives_of_literal (literal : ∀ f, r.default ≠ some (.callable f)) :
    r.ProducerGives fun _ => True :=
  fun f own => (literal f own).elim

/-- A rule begins with related entries again. -/
theorem prepare_reordered (known : r.name.identity?.isSome = true)
    (literal : ∀ f, r.default ≠ some (.callable f)) (related : entries.Reordered others)
    (writable : Bool) (st : Store) :
    (r.prepare writable entries st).1.Reordered (r.prepare writable others st).1 ∧
      (r.prepare writable others st).2 = (r.prepare writable entries st).2 := by
  cases writable with
  | false => exact ⟨related, rfl⟩
  | true =>
      obtain ⟨given, gives, own⟩ := defaultValue_of_literal literal st
      have found := valueIn_reordered known related
      simp only [prepare, Bool.true_and, gives]
      generalize r.valueIn entries = x at found
      generalize r.valueIn others = y at found
      cases found with
      | some _ => exact ⟨related, rfl⟩
      | none =>
          cases given with
          | none => exact ⟨related, rfl⟩
          | some v => exact ⟨related.put known (own v rfl), rfl⟩

omit [UserCode] in
theorem reportAll_reordered (r : Rule) (st : Store) {messages others : List Message}
    (related : List.Forall₂ Message.Reordered messages others) :
    Paired AnyFaults (List.Forall₂ Violation.Reordered) (r.reportAll st messages)
      (r.reportAll st others) := by
  refine Paired.mapM (fun m n same => ?_) related
  cases m <;> cases n
  · cases same
    exact .of_eq (fun _ => trivial) .refl _
  · cases same
  · cases same
  · exact .ok ⟨rfl, same⟩

/-- A rule is applied side by side to related entries, if that is so of the check of its type. -/
theorem walk_reordered_of_check (known : r.name.identity?.isSome = true)
    (custom : r.custom = none)
    (literal : ∀ f, r.default ≠ some (.callable f))
    (checked : ∀ v w st, v.Reordered w →
      (r.type.check r r.name v st).Paired AnyFaults Value.Reordered
        (List.Forall₂ Message.Reordered) (r.type.check r r.name w st))
    (s : Schema) {home : Home} (owned : home.isOwned = true) (related : entries.Reordered others)
    (st : Store) :
    (r.walk s home entries st).Paired AnyFaults Entries.Reordered
      (List.Forall₂ Violation.Reordered) (r.walk s home others st) := by
  have gives := producerGives_of_literal literal
  obtain ⟨begun, store⟩ := prepare_reordered known literal related home.writable st
  have found := valueIn_reordered known begun
  rw [walk_eq_of_custom owned gives custom, walk_eq_of_custom owned gives custom]
  dsimp only
  rw [store]
  generalize r.valueIn (r.prepare home.writable entries st).1 = x at found
  generalize r.valueIn (r.prepare home.writable others st).1 = y at found
  cases found with
  | none =>
      refine .ofExcept ?_ begun _
      split
      · exact (Paired.of_eq (fun _ => trivial) Violation.Reordered.refl _).map
          fun _ _ same => .cons same .nil
      · exact .ok .nil
  | some same =>
      have checks := checked _ _ (r.prepare home.writable entries st).2 same
      dsimp only
      rw [checks.store]
      exact (checks.check fun _ _ => r.reportAll_reordered _).embed
        fun _ _ => begun.put known

end Rule

theorem walkRules_reordered {rules : List Rule}
    (known : ∀ r ∈ rules, r.name.identity?.isSome = true)
    (custom : ∀ r ∈ rules, r.custom = none)
    (literal : ∀ r ∈ rules, ∀ f, r.default ≠ some (.callable f))
    (checked : ∀ r ∈ rules, ∀ v w st, v.Reordered w →
      (r.type.check r r.name v st).Paired AnyFaults Value.Reordered
        (List.Forall₂ Message.Reordered) (r.type.check r r.name w st))
    (s : Schema) {home : Home} (owned : home.isOwned = true) {entries others : Entries}
    (related : entries.Reordered others) (st : Store) :
    (walkRules rules s home entries st).Paired AnyFaults Entries.Reordered
      (List.Forall₂ Violation.Reordered) (walkRules rules s home others st) := by
  induction rules generalizing entries others st with
  | nil => exact .done .nil related st
  | cons r rest ih =>
      rw [List.forall_mem_cons] at known custom literal checked
      rw [walkRules, walkRules]
      exact (Rule.walk_reordered_of_check known.1 custom.1 literal.1 checked.1 s owned related
        st).append fun _ _ st later => ih known.2 custom.2 literal.2 checked.2 later st

/-! ## Schemas -/

omit [UserCode] in
theorem Schema.declares_of_mem_undeclared (s : Schema) {entries : Entries} {x : Violation}
    (mem : x ∈ s.undeclared entries) : s.declares x.key = false := by
  rw [undeclared] at mem
  split at mem
  · cases mem
  · obtain ⟨key, inKeys, rfl⟩ := List.mem_map.mp mem
    simpa using (List.mem_filter.mp inKeys).2

omit [UserCode] in
/-- The same keys are undeclared, in another order. -/
theorem Schema.undeclared_perm (s : Schema) {entries others : Entries}
    (keys : entries.keys.Perm others.keys) :
    (s.undeclared entries).Perm (s.undeclared others) := by
  rw [undeclared, undeclared]
  split
  · exact .refl _
  · exact (keys.filter _).map _

theorem Schema.walkEntries_reordered {s : Schema} (plain : s.Literal)
    (checked : ∀ r ∈ s.rules, ∀ v w st, v.Reordered w →
      (r.type.check r r.name v st).Paired AnyFaults Value.Reordered
        (List.Forall₂ Message.Reordered) (r.type.check r r.name w st))
    {home : Home} (owned : home.isOwned = true) {entries others : Entries}
    (related : entries.Reordered others) (st : Store) :
    (s.walkEntries home entries st).Paired AnyFaults Entries.Reordered s.FoundReordered
      (s.walkEntries home others st) := by
  have ruled := walkRules_reordered plain.names.known plain.custom plain.defaults checked s owned
    related st
  refine .tally (ruled.map fun later later' same => ?_) _ _
  exact ⟨_, _, later, later', rfl, rfl, s.undeclared_perm related.keys,
    fun _ => s.declares_of_mem_undeclared, same⟩

theorem Schema.walk_reordered_of_checks {s : Schema} (plain : s.Literal)
    (checked : ∀ r ∈ s.rules, ∀ v w st, v.Reordered w →
      (r.type.check r r.name v st).Paired AnyFaults Value.Reordered
        (List.Forall₂ Message.Reordered) (r.type.check r r.name w st))
    {v w : Value} (related : v.Reordered w) (st : Store) :
    (s.walk v st).Paired AnyFaults Value.Reordered s.FoundReordered (s.walk w st) := by
  rw [walk_eq]
  cases (Value.reordered_iff v w).mp related with
  | object inner =>
      exact (walkEntries_reordered plain checked Home.isOwned_object inner st).embed fun _ _ same =>
        (Value.reordered_iff _ _).mpr (.object same)
  | frozen inner =>
      exact (walkEntries_reordered plain checked Home.isOwned_frozen inner st).embed fun _ _ same =>
        (Value.reordered_iff _ _).mpr (.frozen same)
  | list each => exact .done (.refl s _) related st
  | tuple each => exact .done (.refl s _) related st
  | leaf own =>
      refine ⟨.of_eq (fun _ => trivial) (.refl s) _, ?_, rfl⟩
      cases v with
      | object _ | frozen _ | shared _ => cases own
      | _ => exact related

omit [UserCode] in
/-- Items that are the same up to the order of keys are taken or refused together, if that is so
of each. -/
theorem Value.Reordered.allItems {takes : Walk Bool}
    (each : ∀ v w st, v.Reordered w →
      (takes v st).Paired AnyFaults Value.Reordered Eq (takes w st))
    {v w : Value} (related : v.Reordered w) (st : Store) :
    (takes.ofItems v st).Paired AnyFaults Value.Reordered Eq (takes.ofItems w st) := by
  cases (Value.reordered_iff v w).mp related with
  | list items =>
      exact (Walk.allItems_paired each items st).embed fun _ _ same =>
        (Value.reordered_iff _ _).mpr (.list same)
  | tuple items =>
      exact (Walk.allItems_paired each items st).embed fun _ _ same =>
        (Value.reordered_iff _ _).mpr (.tuple same)
  | object _ => exact .done rfl related st
  | frozen _ => exact .done rfl related st
  | leaf own =>
      cases v with
      | list _ | tuple _ | shared _ => cases own
      | _ => exact .done rfl related st

/-- Runs over trees that are the same up to the order of keys go side by side. So do the checks of
a type on such values, and so does asking whether a type takes them. -/
theorem Schema.reordered :
    (∀ s : Schema, s.Throughout Schema.Literal → ∀ v w st, v.Reordered w →
      (s.walk v st).Paired AnyFaults Value.Reordered s.FoundReordered (s.walk w st)) ∧
    ∀ t : TypeSpec, t.Throughout Schema.Literal → ∀ v w st, v.Reordered w →
      (∀ r key, (t.check r key v st).Paired AnyFaults Value.Reordered
        (List.Forall₂ Message.Reordered) (t.check r key w st)) ∧
      (t.takes v st).Paired AnyFaults Value.Reordered Eq (t.takes w st) := by
  have same (messages : List Message) : List.Forall₂ Message.Reordered messages messages :=
    List.forall₂_same.mpr fun m _ => .refl m
  refine Schema.induction ⟨?schema, ?scalar, ?nested, ?untyped, ?array⟩
  case schema =>
    intro s below plain v w st related
    rw [Schema.throughout_iff] at plain
    exact Schema.walk_reordered_of_checks plain.1
      (fun r mem v w st related => (below r mem (plain.2 r mem) v w st related).1 r r.name)
      related st
  case scalar =>
    intro kind _ v w st related
    refine ⟨fun r key => ?_, ?_⟩
    · rw [TypeSpec.check, TypeSpec.check, related.head_eq, related.head_eq_right,
        related.scalarFailures]
      exact .ofExcept (.of_eq (fun _ => trivial) same _) related st
    · rw [TypeSpec.takes, TypeSpec.takes, related.head_eq, related.head_eq_right, related.fits]
      exact .ofExcept (.of_eq (fun _ => trivial) (fun _ => rfl) _) related st
  case nested =>
    intro s below plain v w st related
    have walked := below plain v w st related
    refine ⟨fun r key => ?_, walked.map fun _ _ found => found.isEmpty.symm⟩
    rw [TypeSpec.check, TypeSpec.check, related.head_eq, related.head_eq_right, related.isMapping,
      related.mismatchText_eq]
    split
    · exact .done (same _) related st
    · refine walked.check fun xs ys found => ?_
      rw [found.isEmpty]
      split
      · exact .ok .nil
      · exact (foldMessages_perm key found.messages).map fun _ _ said => .cons said .nil
  case untyped =>
    intro _ v w st related
    refine ⟨fun r key => ?_, ?_⟩
    · rw [TypeSpec.check, TypeSpec.check, related.head_eq, related.head_eq_right]
      have items := related.items?
      generalize v.items? = x at items
      generalize w.items? = y at items
      cases items with
      | none =>
          rw [related.mismatchText_eq]
          exact .done (same _) related st
      | some each =>
          dsimp only
          rw [each.length_eq]
          exact .done (same _) related st
    · rw [TypeSpec.takes, TypeSpec.takes, related.head_eq, related.head_eq_right, related.isArray]
      exact .done rfl related st
  case array =>
    intro item below plain v w st related
    have each := related.allItems (fun v w st same => (below plain v w st same).2) st
    refine ⟨fun r key => ?_, each⟩
    rw [TypeSpec.check, TypeSpec.check, related.head_eq, related.head_eq_right]
    have items := related.items?
    generalize v.items? = x at items
    generalize w.items? = y at items
    cases items with
    | none =>
        rw [related.mismatchText_eq]
        exact .done (same _) related st
    | some lengths =>
        dsimp only
        rw [lengths.length_eq]
        refine each.map fun all all' answer => ?_
        subst answer
        exact same _

/-! ## Bodies -/

section Keys

variable {entries others : Entries}

/-- The names of a schema that some entries hold, in the order of the rules. -/
def Schema.namesIn (s : Schema) (entries : Entries) : List Value :=
  (s.rules.filter (entries.contains ·.name)).map (·.name)

omit [UserCode] in
/-- An ordered body of declared keys has the names that the entries hold. -/
theorem Schema.keys_project {s : Schema} (names : s.NamesApart) (apart : entries.Apart)
    {includeAll : Bool}
    (declared : ∀ key ∈ (s.keptEntries includeAll entries).keys, s.declares key = true) :
    (s.project ⟨includeAll, true⟩ entries).keys = s.namesIn entries := by
  have kept : (s.keptEntries includeAll entries).Apart := by
    rw [keptEntries_eq]
    exact apart.sublist List.filter_sublist
  have once (r : Rule) (mem : r ∈ s.rules) :
      (s.keptEntries includeAll entries).FoundOnce r.name := by
    obtain ⟨i, identity⟩ := Option.isSome_iff_exists.mp (names.known r mem)
    exact kept.foundOnce identity
  have others : ((s.keptEntries includeAll entries).filter fun e => !s.declares e.1) = [] := by
    rw [List.filter_eq_nil_iff]
    intro e mem
    rw [declared e.1 (List.mem_map_of_mem mem)]
    exact Bool.false_ne_true
  have named : declaredEntries s.rules (s.keptEntries includeAll entries) =
      declaredEntries s.rules entries := declaredEntries_congr fun r mem =>
    (get?_keptEntries names.keys (names.keys r mem) includeAll entries).trans
      (keeps_name names.keys mem includeAll entries)
  have ordered : s.project ⟨includeAll, true⟩ entries = declaredEntries s.rules entries := by
    have first := orderEntries_eq names.keys names.differ once
    rw [← named, project, if_pos rfl, first]
    exact (congrArg _ others).trans (List.append_nil _)
  rw [ordered, keys_declaredEntries, namesIn]

omit [UserCode] in
/-- The same names are held. -/
theorem Schema.namesIn_reordered {s : Schema} (names : s.NamesApart)
    (related : entries.Reordered others) : s.namesIn others = s.namesIn entries := by
  have same : s.rules.filter (others.contains ·.name) =
      s.rules.filter (entries.contains ·.name) := by
    refine List.filter_congr fun r mem => ?_
    have found := related.get? (names.known r mem)
    rw [Entries.contains, Entries.contains]
    generalize entries.get? r.name = x at found
    generalize others.get? r.name = y at found
    cases found <;> rfl
  rw [namesIn, same, namesIn]

end Keys

/-! ## Reports -/

/-- A schema leaves a mapping of data that it accepts, with declared keys only if it is strict. -/
theorem Schema.Accepts.exists_entries {s : Schema} (names : s.NamesApart) (custom : s.WithoutCustom)
    {v : Value} (own : ∀ cell, v ≠ .shared cell) {st : Store} (accepted : s.Accepts v st) :
    ∃ entries, (s.walk v st).left.entries? = some entries ∧
      (s.flex = false → ∀ key ∈ entries.keys, s.declares key = true) := by
  have head : st.head v = v := by
    cases v with
    | shared cell => exact (own cell rfl).elim
    | _ => rfl
  cases before : v.entries? with
  | none =>
      obtain ⟨report, found, valid⟩ := accepted
      cases (validate_of_no_mapping s (head.symm ▸ before)).symm.trans found
      cases valid
  | some entries =>
      have mapping := s.walk_left_isMapping own st
      rw [Value.isMapping_eq, Value.isMapping_eq, before] at mapping
      obtain ⟨after, left⟩ := Option.isSome_iff_exists.mp mapping
      refine ⟨after, left, fun strict => walk_declared names.known custom own before left ?_⟩
      obtain ⟨rules, flex⟩ := s
      cases strict
      exact ((accepts_strict_iff custom (head.symm ▸ before)).mp accepted).2

/-- Two reports of a schema say the same, up to the order of keys. -/
structure Schema.ReportsReordered (s : Schema) (report other : Report) : Prop where
  verdict : other.valid = report.valid
  data : report.data.Reordered other.data
  /-- Declared keys are reported in one order, and told the same but for what is folded. -/
  declared : List.Forall₂ Violation.Reordered (report.violations.filter (s.declares ·.key))
    (other.violations.filter (s.declares ·.key))
  messages : report.messages.Perm other.messages
  /-- Ordered bodies without undeclared keys have the declared keys that are there, in the order of
  the rules. -/
  bodies : report.valid = true → ∀ includeAll, s.flex = false ∨ includeAll = false →
    ∃ entries others, report.data.entries? = some entries ∧ other.data.entries? = some others ∧
      (s.project ⟨includeAll, true⟩ entries).keys = s.namesIn entries ∧
      (s.project ⟨includeAll, true⟩ others).keys = s.namesIn entries

/-- For every schema throughout which names are apart and there are neither custom validators nor
producers, and any two trees that are the same up to the order of keys, at any depth: both runs
report or both fail. Their reports have the same verdict; the data are the same again up to the
order of keys; declared keys are reported in the same order, with the same messages up to the order
of what is folded; and all messages are the same up to their order. If the data are valid, and
undeclared keys are refused or dropped, their ordered bodies have the same keys in the same order:
the names of the schema that are present, in the order of its rules. -/
theorem Schema.validate_reordered {s : Schema} (plain : s.Throughout Schema.Literal) {v w : Value}
    (related : v.Reordered w) (st : Store) :
    Paired AnyFaults s.ReportsReordered (s.validate v st).result (s.validate w st).result := by
  have own := ((throughout_iff s).mp plain).1
  have runs := Schema.reordered.1 s plain v w st related
  have left : ∀ found, (s.walk v st).result = .ok found → found = [] →
      ∃ entries, (s.walk v st).left.entries? = some entries ∧
        (s.flex = false → ∀ key ∈ entries.keys, s.declares key = true) := by
    rintro _ walked rfl
    exact Accepts.exists_entries own.names own.custom related.ne_shared
      ((accepts_iff s v st).mpr walked)
  rw [result_validate, result_validate]
  refine (runs.result.and left fun _ _ => trivial).map fun xs ys found => ?_
  obtain ⟨same, ofValid, -⟩ := found
  refine ⟨same.isEmpty, runs.left, same.declared, same.messages, fun valid includeAll only => ?_⟩
  obtain ⟨entries, mapping, strict⟩ := ofValid (List.isEmpty_iff.mp valid)
  have both := runs.left.entries?
  rw [mapping] at both
  generalize (s.walk w st).left.entries? = found at both
  cases both with
  | @some _ others same =>
      refine ⟨entries, others, mapping, rfl, ?_, ?_⟩
      · exact keys_project own.names same.apart fun key => declares_of_kept only strict
      · rw [← namesIn_reordered own.names same]
        refine keys_project own.names same.apart_right fun key => declares_of_kept only ?_
        exact fun flex key mem => strict flex key (same.keys.mem_iff.mpr mem)

end

/-- A sheet has a title, a size, which has two numbers and nothing else, and a unit, which is
filled in. -/
def sheetSchema : Schema :=
  ⟨[Rule.ofType (.text "title") (.scalar .text),
    Rule.ofType (.text "size") (.nested
      ⟨[Rule.ofType (.text "width") (.scalar .number),
        Rule.ofType (.text "height") (.scalar .number)], false⟩),
    { Rule.ofType (.text "unit") (.scalar .text) with default := some (.text "mm") }], true⟩

open WithoutUserCode in
theorem validate_reordered_sheet :
    let v : Value := .object [(.text "title", .text "Plan"),
      (.text "size", .object [(.text "depth", .int 1), (.text "colour", .text "red")])]
    let w : Value := .object [
      (.text "size", .object [(.text "colour", .text "red"), (.text "depth", .int 1)]),
      (.text "title", .text "Plan")]
    sheetSchema.Throughout Schema.Literal ∧ v.Reordered w ∧
      ∃ report other, (sheetSchema.validate v Store.empty).result = .ok report ∧
        (sheetSchema.validate w Store.empty).result = .ok other ∧
        report.messages = [.text "Property size.depth not valid in schema",
          .text "Property size.colour not valid in schema"] ∧
        other.messages = [.text "Property size.colour not valid in schema",
          .text "Property size.depth not valid in schema"] ∧
        sheetSchema.ReportsReordered report other := by
  intro v w
  have plain : sheetSchema.Throughout Schema.Literal := by
    refine ⟨⟨⟨?_, ?_⟩, ?_, ?_⟩, trivial, ⟨⟨⟨?_, ?_⟩, ?_, ?_⟩, trivial, trivial, trivial⟩, trivial,
      trivial⟩ <;> simp [Rule.ofType, Value.identity?, Schema.WithoutCustom]
  have related : v.Reordered w := by
    refine ⟨_, rfl, ?_, _, ⟨_, _, rfl, rfl, _, _, rfl, ?_, rfl⟩, .swap _ _ []⟩
    · simp [Entries.Apart, Entries.keys, Value.identity?]
    · refine ⟨_, rfl, ?_, _, ⟨_, _, rfl, rfl, _, _, rfl, rfl, rfl⟩, .swap _ _ []⟩
      simp [Entries.Apart, Entries.keys, Value.identity?]
  obtain ⟨report, returned⟩ : ∃ report, (sheetSchema.validate v Store.empty).result = .ok report :=
    ⟨_, rfl⟩
  obtain ⟨other, returned', same⟩ :=
    (Schema.validate_reordered plain related Store.empty).exists_ok returned
  refine ⟨plain, related, report, other, returned, returned', ?_, ?_, same⟩
  · cases returned
    rfl
  · cases returned'
    rfl

end DataContract
