/-
# What a run may write

A run writes defaults and nothing else. What may become of data is said here by recursion on
the schema, without a run: mappings that the schema reaches keep their keys and what stands
under them, and get the defaults of absent properties, in place where the key was there and
otherwise at the end, in the order of the rules. All other data stay what they are. A run
over data that are a tree stays within that, also where it ends early.
-/

import DataContract.Proofs.Schema.Grammar
import DataContract.Proofs.Validation.Judgement
import DataContract.Validation.Findings
import Mathlib.Data.List.Forall2

set_option autoImplicit false

namespace DataContract

section

variable [UserCode]

/-- What may be written for a default: a text or a number as it is, or what a producer
gives. -/
def DefaultGives (default : Option Value) (given : Value) : Prop :=
  (default = some given ∧ ((∃ s, given = .text s) ∨ given.isNumber = true)) ∨
    ∃ f st, default = some (.callable f) ∧ (f.produce st).1 = .ok given

mutual

/-- What a schema lets become of a value: a mapping keeps its entries in their order, may
get further ones at the end, and stays of its sort. -/
def Schema.Grows : Schema → Value → Value → Prop
  | ⟨rules, _⟩, .object entries, after =>
    ∃ kept added, after = .object (kept ++ added) ∧
      List.Forall₂ (fun old new => new.1 = old.1 ∧ KeyGrows rules true old.1 old.2 new.2)
        entries kept ∧
      AddedGrow rules true entries added
  | ⟨rules, _⟩, .frozen entries, after =>
    ∃ kept added, after = .frozen (kept ++ added) ∧
      List.Forall₂ (fun old new => new.1 = old.1 ∧ KeyGrows rules false old.1 old.2 new.2)
        entries kept ∧
      AddedGrow rules false entries added
  | _, before, after => after = before
  termination_by structural s => s

/-- What rules let become of the value under a key: the rule of that name decides, and
without one the value stays. -/
def KeyGrows : List Rule → Bool → Value → Value → Value → Prop
  | [], _, _, before, after => after = before
  | r :: rest, writable, key, before, after =>
    if key.equal r.name then r.Grows writable before after
    else KeyGrows rest writable key before after
  termination_by structural rules => rules

/-- The entries that rules may add to a mapping that can be written to: defaults of names
that are not there, in the order of the rules. -/
def AddedGrow : List Rule → Bool → Entries → Entries → Prop
  | [], _, _, added => added = []
  | r :: rest, writable, entries, added =>
    AddedGrow rest writable entries added ∨
      (writable = true ∧ entries.get? r.name = none ∧
        ∃ v more, added = (r.name, v) :: more ∧ r.Supplies v ∧
          AddedGrow rest writable entries more)
  termination_by structural rules => rules

/-- What a rule lets become of the value of its property: what its type lets become of it,
or of the default where there is none. -/
def Rule.Grows (r : Rule) (writable : Bool) (before after : Value) : Prop :=
  match r with
  | { type, default, .. } =>
    type.Grows before after ∨
      (writable = true ∧ before = .null ∧ ∃ given, DefaultGives default given ∧
        type.Grows given after)
  termination_by structural r

/-- The values that a rule may put where its property is absent. -/
def Rule.Supplies (r : Rule) (v : Value) : Prop :=
  match r with
  | { type, default, .. } => ∃ given, DefaultGives default given ∧ type.Grows given v
  termination_by structural r

/-- What a type lets become of a value: only nested records grow, also as items. -/
def TypeSpec.Grows : TypeSpec → Value → Value → Prop
  | .nested s, before, after => s.Grows before after
  | .array (some item), .list items, after =>
    ∃ grown, after = .list grown ∧ List.Forall₂ item.Grows items grown
  | .array (some item), .tuple items, after =>
    ∃ grown, after = .tuple grown ∧ List.Forall₂ item.Grows items grown
  | _, before, after => after = before
  termination_by structural t => t

end

/-- What rules let become of one entry: its key stays. -/
abbrev EntryGrows (rules : List Rule) (writable : Bool) (old new : Value × Value) : Prop :=
  new.1 = old.1 ∧ KeyGrows rules writable old.1 old.2 new.2

/-- What rules let become of entries. -/
def EntriesGrow (rules : List Rule) (writable : Bool) (before after : Entries) : Prop :=
  ∃ kept added, after = kept ++ added ∧ List.Forall₂ (EntryGrows rules writable) before kept ∧
    AddedGrow rules writable before added

/-! ## What stays may stay -/

theorem addedGrow_nil (rules : List Rule) (writable : Bool) (entries : Entries) :
    AddedGrow rules writable entries [] := by
  induction rules with
  | nil => rfl
  | cons r rest ih => exact .inl ih

theorem EntriesGrow.refl_of_keys {rules : List Rule} {writable : Bool}
    (each : ∀ key v, KeyGrows rules writable key v v) (entries : Entries) :
    EntriesGrow rules writable entries entries := by
  refine ⟨entries, [], (List.append_nil entries).symm, ?_, addedGrow_nil rules writable entries⟩
  exact List.forall₂_same.mpr fun e _ => ⟨rfl, each e.1 e.2⟩

theorem Rule.grows_of_type {r : Rule} {writable : Bool} {v v' : Value} (grows : r.type.Grows v v') :
    r.Grows writable v v' := by
  obtain ⟨name, type, required, custom, pattern, min, max, choices, default, message⟩ := r
  exact .inl grows

theorem keyGrows_refl_of_each {rules : List Rule} {key v : Value}
    (each : ∀ r ∈ rules, r.type.Grows v v) (writable : Bool) :
    KeyGrows rules writable key v v := by
  induction rules with
  | nil => rfl
  | cons r rest ih =>
      rw [List.forall_mem_cons] at each
      rw [KeyGrows]
      split
      · exact Rule.grows_of_type each.1
      · exact ih each.2

theorem Schema.grows_self : (∀ (s : Schema) v, s.Grows v v) ∧ ∀ (t : TypeSpec) v, t.Grows v v := by
  refine Schema.induction ⟨?schema, ?scalar, ?nested, ?untyped, ?array⟩
  case schema =>
    intro s below v
    obtain ⟨rules, flex⟩ := s
    have same (writable : Bool) (entries : Entries) :
        EntriesGrow rules writable entries entries :=
      .refl_of_keys (fun _ v => keyGrows_refl_of_each (fun r mem => below r mem v) writable) entries
    cases v with
    | object entries =>
        obtain ⟨kept, added, same, all, more⟩ := same true entries
        exact ⟨kept, added, congrArg Value.object same, all, more⟩
    | frozen entries =>
        obtain ⟨kept, added, same, all, more⟩ := same false entries
        exact ⟨kept, added, congrArg Value.frozen same, all, more⟩
    | _ => rfl
  case scalar => exact fun _ _ => rfl
  case nested => exact fun _ below v => below v
  case untyped => exact fun _ => rfl
  case array =>
    intro item below v
    have all (items : List Value) : List.Forall₂ item.Grows items items :=
      List.forall₂_same.mpr fun x _ => below x
    cases v with
    | list items => exact ⟨items, rfl, all items⟩
    | tuple items => exact ⟨items, rfl, all items⟩
    | _ => rfl

theorem keyGrows_refl (rules : List Rule) (writable : Bool) (key v : Value) :
    KeyGrows rules writable key v v :=
  keyGrows_refl_of_each (fun r _ => Schema.grows_self.2 r.type v) writable

/-! ## One rule -/

/-- Under a key that no rule is named by, nothing changes. -/
theorem KeyGrows.eq_of_undeclared {rules : List Rule} {writable : Bool} {key before after : Value}
    (grows : KeyGrows rules writable key before after)
    (undeclared : ∀ r ∈ rules, key.equal r.name = false) : after = before := by
  induction rules with
  | nil => exact grows
  | cons r rest ih =>
      rw [KeyGrows, undeclared r List.mem_cons_self] at grows
      exact ih grows fun q mem => undeclared q (List.mem_cons_of_mem r mem)

/-- What may be added depends on the names that are not there, and on nothing else. -/
theorem addedGrow_congr {rules : List Rule} {writable : Bool} {entries other added : Entries}
    (same : ∀ r ∈ rules, other.get? r.name = entries.get? r.name) :
    AddedGrow rules writable other added ↔ AddedGrow rules writable entries added := by
  induction rules generalizing added with
  | nil => rfl
  | cons r rest ih =>
      have later (more : Entries) :
          AddedGrow rest writable other more ↔ AddedGrow rest writable entries more :=
        ih fun q mem => same q (List.mem_cons_of_mem r mem)
      simp only [AddedGrow, later, same r List.mem_cons_self]

/-- What one rule does to entries: it leaves them, or writes what it may under its name. -/
inductive Rule.Writes (r : Rule) (writable : Bool) (before : Entries) : Entries → Prop
  | nothing : r.Writes writable before before
  | inPlace {v v' : Value} : before.get? r.name = some v → r.Grows writable v v' →
      r.Writes writable before (before.put r.name v')
  | atEnd {v : Value} : before.get? r.name = none → writable = true → r.Supplies v →
      r.Writes writable before (before.put r.name v)

theorem Rule.grows_of_default {r : Rule} {given v : Value} (gives : DefaultGives r.default given)
    (grows : r.type.Grows given v) : r.Grows true .null v := by
  obtain ⟨name, type, required, custom, pattern, min, max, choices, default, message⟩ := r
  exact .inr ⟨rfl, rfl, given, gives, grows⟩

theorem Rule.supplies_of_default {r : Rule} {given v : Value}
    (gives : DefaultGives r.default given) (grows : r.type.Grows given v) : r.Supplies v := by
  obtain ⟨name, type, required, custom, pattern, min, max, choices, default, message⟩ := r
  exact ⟨given, gives, grows⟩

/-- The default of a rule is one that it may write. -/
theorem Rule.defaultGives {r : Rule} {st : Store} {given : Value}
    (own : (r.defaultValue st).1 = .ok (some given)) : DefaultGives r.default given := by
  rw [defaultValue] at own
  split at own
  next f isProducer =>
    split at own
    next v left outcome =>
      cases own
      exact .inr ⟨f, st, isProducer, by rw [outcome]⟩
    · split at own <;> cases own
  next s isText =>
    cases own
    exact .inl ⟨isText, .inl ⟨s, rfl⟩⟩
  next v _ _ literal =>
    split at own
    next number =>
      cases own
      exact .inl ⟨literal, .inr number⟩
    · cases own
  · cases own

/-- What is written in place of an absent value is what a rule may write there. -/
theorem Rule.writes_of_default {r : Rule} {writable : Bool} {entries : Entries} {given v : Value}
    (gives : DefaultGives r.default given) (canWrite : writable = true)
    (absent : r.valueIn entries = none) (grows : r.type.Grows given v) :
    r.Writes writable entries (entries.put r.name v) := by
  subst canWrite
  rcases (r.valueIn_eq_none_iff entries).mp absent with missing | null
  · exact .atEnd missing rfl (supplies_of_default gives grows)
  · exact .inPlace null (grows_of_default gives grows)

/-- If the check of its type only lets values grow, a rule writes only what it may. -/
theorem Rule.walk_writes_of_check {r : Rule} (known : r.name.identity?.isSome = true)
    (contained : r.SelfContained)
    (checked : ∀ v st, v.unshared = true → r.type.Grows v (r.type.check r r.name v st).left)
    (s : Schema) {home : Home} (owned : home.isOwned = true) {entries : Entries}
    (own : entriesUnshared entries = true) (st : Store) :
    r.Writes home.writable entries (r.walk s home entries st).left := by
  have ownBegun := Rule.prepare_unshared contained own home.writable st
  have begins := r.prepare_cases home.writable entries st
  rw [Rule.walk_eq_of_custom owned contained.default contained.custom]
  dsimp only
  generalize r.prepare home.writable entries st = begun at ownBegun begins
  cases found : r.valueIn begun.1 with
  | none =>
      rcases begins with same | ⟨given, default, canWrite, absent, written⟩
      · exact same ▸ .nothing
      · exact written ▸ writes_of_default (defaultGives default) canWrite absent
          (Schema.grows_self.2 r.type given)
  | some v =>
      obtain ⟨there, present⟩ := (Rule.valueIn_eq_some_iff r begun.1 v).mp found
      obtain ⟨key, mem⟩ := Entries.mem_of_get? there
      have grows := checked v begun.2 ((entriesUnshared_iff begun.1).mp ownBegun (key, v) mem)
      change r.Writes home.writable entries
        (begun.1.put r.name (r.type.check r r.name v begun.2).left)
      rcases begins with same | ⟨given, default, canWrite, absent, written⟩
      · rw [same] at there ⊢
        exact .inPlace there (grows_of_type grows)
      · obtain ⟨i, identity⟩ := Option.isSome_iff_exists.mp known
        have isDefault : v = given := by
          rw [written, Entries.get?_put_self identity] at there
          exact (Option.some.inj there).symm
        rw [written, Entries.put_put known]
        exact writes_of_default (defaultGives default) canWrite absent (isDefault ▸ grows)

/-! ## Rules in order -/

section InOrder

variable {r : Rule} {rest : List Rule} {writable : Bool}
  (apart : ∀ key : Value, key.equal r.name = true → ∀ q ∈ rest, key.equal q.name = false)

include apart

/-- Where the later rules change nothing, the first one may have left it too. -/
theorem entryGrows_cons {old new : Value × Value} (grows : EntryGrows rest writable old new) :
    EntryGrows (r :: rest) writable old new := by
  refine grows.imp_right fun later => ?_
  rw [KeyGrows]
  split
  next own =>
    rw [later.eq_of_undeclared (apart old.1 own)]
    exact Rule.grows_of_type (Schema.grows_self.2 r.type old.2)
  next => exact later

/-- After a rule has written in place, the others leave what it wrote. -/
theorem entriesGrow_of_inPlace {entries kept : Entries} {v v' : Value}
    (there : entries.get? r.name = some v) (grows : r.Grows writable v v')
    (later : List.Forall₂ (EntryGrows rest writable) (entries.put r.name v') kept) :
    List.Forall₂ (EntryGrows (r :: rest) writable) entries kept := by
  induction entries generalizing kept with
  | nil => cases there
  | cons e tail ih =>
      obtain ⟨k, old⟩ := e
      rw [Entries.get?] at there
      rw [Entries.put] at later
      split at there
      next own =>
        cases there
        rw [if_pos own] at later
        obtain ⟨new, others, head, all, rfl⟩ := List.forall₂_cons_left_iff.mp later
        refine .cons ⟨head.1, ?_⟩ (all.imp fun _ _ => entryGrows_cons apart)
        rw [KeyGrows, if_pos own, head.2.eq_of_undeclared (apart k own)]
        exact grows
      next other =>
        rw [if_neg other] at later
        obtain ⟨new, others, head, all, rfl⟩ := List.forall₂_cons_left_iff.mp later
        exact .cons (entryGrows_cons apart head) (ih there all)

/-- After a rule has written at the end, the others leave what it wrote, and its place. -/
theorem entriesGrow_of_atEnd (known : r.name.equal r.name = true) {entries kept : Entries}
    {v : Value} (absent : entries.get? r.name = none)
    (later : List.Forall₂ (EntryGrows rest writable) (entries.put r.name v) kept) :
    ∃ first, kept = first ++ [(r.name, v)] ∧
      List.Forall₂ (EntryGrows (r :: rest) writable) entries first := by
  induction entries generalizing kept with
  | nil =>
      obtain ⟨new, others, head, all, rfl⟩ := List.forall₂_cons_left_iff.mp later
      cases all
      refine ⟨[], ?_, .nil⟩
      have same : new = (r.name, v) :=
        Prod.ext head.1 (head.2.eq_of_undeclared (apart r.name known))
      rw [same, List.nil_append]
  | cons e tail ih =>
      obtain ⟨k, old⟩ := e
      rw [Entries.get?] at absent
      rw [Entries.put] at later
      split at absent
      · cases absent
      next other =>
        rw [if_neg other] at later
        obtain ⟨new, others, head, all, rfl⟩ := List.forall₂_cons_left_iff.mp later
        obtain ⟨first, rfl, grown⟩ := ih absent all
        exact ⟨new :: first, rfl, .cons (entryGrows_cons apart head) grown⟩

/-- What a rule writes and what the others let become of it. -/
theorem EntriesGrow.cons (known : r.name.equal r.name = true) {before between after : Entries}
    (writes : r.Writes writable before between) (later : EntriesGrow rest writable between after)
    (others : ∀ q ∈ rest, between.get? q.name = before.get? q.name) :
    EntriesGrow (r :: rest) writable before after := by
  obtain ⟨kept, added, rfl, all, more⟩ := later
  have moved := (addedGrow_congr others).mp more
  cases writes with
  | nothing => exact ⟨kept, added, rfl, all.imp fun _ _ => entryGrows_cons apart, .inl moved⟩
  | inPlace there grows =>
      exact ⟨kept, added, rfl, entriesGrow_of_inPlace apart there grows all, .inl moved⟩
  | @atEnd v absent canWrite supplies =>
      obtain ⟨first, rfl, grown⟩ := entriesGrow_of_atEnd apart known absent all
      refine ⟨first, (r.name, v) :: added, by simp, grown, .inr ?_⟩
      exact ⟨canWrite, absent, v, added, rfl, supplies, moved⟩

end InOrder

/-- If each rule writes only what it may, rules applied in order do, also where a failure
stops them. -/
theorem walkRules_grow_of_each {rules : List Rule}
    (known : ∀ r ∈ rules, r.name.identity?.isSome = true)
    (apart : (rules.map fun r => r.name.identity?).Nodup)
    (custom : ∀ r ∈ rules, r.custom = none) (s : Schema) {home : Home}
    (owned : home.isOwned = true)
    (each : ∀ r ∈ rules, ∀ entries st, entriesUnshared entries = true →
      r.Writes home.writable entries (r.walk s home entries st).left ∧
        entriesUnshared (r.walk s home entries st).left = true)
    {entries : Entries} (own : entriesUnshared entries = true) (st : Store) :
    EntriesGrow rules home.writable entries (walkRules rules s home entries st).left := by
  induction rules generalizing entries st with
  | nil => exact .refl_of_keys (keyGrows_refl [] home.writable) entries
  | cons r rest ih =>
      rw [List.forall_mem_cons] at known custom each
      obtain ⟨i, identity⟩ := Option.isSome_iff_exists.mp known.1
      rw [List.map_cons, List.nodup_cons] at apart
      have differ (q : Rule) (mem : q ∈ rest) : q.name.identity? ≠ some i := fun same =>
        apart.1 (List.mem_map.mpr ⟨q, mem, same.trans identity.symm⟩)
      have keysApart (key : Value) (own : key.equal r.name = true) (q : Rule) (mem : q ∈ rest) :
          key.equal q.name = false := by
        obtain ⟨j, other⟩ := Option.isSome_iff_exists.mp (known.2 q mem)
        rw [Value.equal_iff_of_identity?_right identity] at own
        rw [← Bool.not_eq_true, Value.equal_iff_of_identity?_right other, own]
        rintro same
        exact differ q mem (other.trans same.symm)
      obtain ⟨writes, ownLeft⟩ := each.1 entries st own
      have others (q : Rule) (mem : q ∈ rest) :
          (r.walk s home entries st).left.get? q.name = entries.get? q.name := by
        obtain ⟨j, other⟩ := Option.isSome_iff_exists.mp (known.2 q mem)
        refine (Rule.walk_onlyUnder known.1 custom.1 s owned entries st).get?_eq q.name j other
          fun n isName same => ?_
        rw [List.mem_singleton.mp isName] at same
        exact differ q mem (other.trans (same.symm.trans identity))
      have same : r.name.equal r.name = true := Value.equal_self known.1
      rw [walkRules, Visit.andThen]
      split
      · exact .cons keysApart same writes (.refl_of_keys (keyGrows_refl rest home.writable) _)
          others
      · exact .cons keysApart same writes (ih known.2 apart.2 custom.2 each.2 ownLeft _) others

/-! ## Schemas and types -/

omit [UserCode] in
/-- Items that are asked in order each become what they may; those after the first that does
not match stay. -/
theorem Walk.allItems_grow {walk : Walk Bool} {grows : Value → Value → Prop}
    (stays : ∀ v, grows v v) {items : List Value}
    (each : ∀ v ∈ items, ∀ st, grows v (walk v st).left) (st : Store) :
    List.Forall₂ grows items (Walk.allItems walk items st).left := by
  induction items generalizing st with
  | nil => exact .nil
  | cons v rest ih =>
      rw [allItems]
      split
      · exact .cons (each v List.mem_cons_self st)
          (ih (fun x mem => each x (List.mem_cons_of_mem v mem)) _)
      · exact .cons (each v List.mem_cons_self st) (List.forall₂_same.mpr fun x _ => stays x)

/-- If items only grow, an array does by its items. -/
theorem Walk.ofItems_grows {item : TypeSpec}
    (each : ∀ x st, x.unshared = true → item.Grows x (item.takes x st).left) {v : Value}
    (own : v.unshared = true) (st : Store) :
    (TypeSpec.array (some item)).Grows v (Walk.ofItems item.takes v st).left := by
  have together (items : List Value) (own : allUnshared items = true) :=
    Walk.allItems_grow (Schema.grows_self.2 item)
      (fun x mem st => each x st ((allUnshared_iff items).mp own x mem)) st
  cases v with
  | list items => exact ⟨_, rfl, together items own⟩
  | tuple items => exact ⟨_, rfl, together items own⟩
  | shared cell => cases own
  | _ => exact Schema.grows_self.2 _ _

/-- If the checks of its rules only let values grow, a schema does. -/
theorem Schema.walk_grows_of_each {s : Schema} (contained : s.Throughout Schema.SelfContained)
    (each : ∀ r ∈ s.rules, ∀ v st, v.unshared = true →
      r.type.Grows v (r.type.check r r.name v st).left)
    {v : Value} (own : v.unshared = true) (st : Store) : s.Grows v (s.walk v st).left := by
  have here := ((Schema.throughout_iff s).mp contained).1
  have known := here.names.known
  have rulesGrow (home : Home) (owned : home.isOwned = true) (entries : Entries)
      (own : entriesUnshared entries = true) :
      EntriesGrow s.rules home.writable entries (s.walkEntries home entries st).left := by
    rw [walkEntries_left]
    refine walkRules_grow_of_each known here.names.apart (fun r mem => (here.rules r mem).custom) s
      owned (fun r mem entries st own => ⟨?_, ?_⟩) own st
    · exact Rule.walk_writes_of_check (known r mem) (here.rules r mem) (each r mem) s owned own st
    · exact Schema.walk_rule_unshared contained mem owned own st
  rw [walk_eq]
  cases v with
  | object entries =>
      obtain ⟨kept, added, same, all, more⟩ := rulesGrow .object rfl entries own
      obtain ⟨rules, flex⟩ := s
      exact ⟨kept, added, congrArg Value.object same, all, more⟩
  | frozen entries =>
      obtain ⟨kept, added, same, all, more⟩ := rulesGrow .frozen rfl entries own
      obtain ⟨rules, flex⟩ := s
      exact ⟨kept, added, congrArg Value.frozen same, all, more⟩
  | shared cell => cases own
  | _ =>
      obtain ⟨rules, flex⟩ := s
      rfl

/-- A run over data that are a tree lets them become only what the schema does. So does the
check of a type, and asking whether a type takes a value. -/
theorem Schema.grows :
    (∀ s : Schema, s.Throughout Schema.SelfContained → ∀ v st, v.unshared = true →
      s.Grows v (s.walk v st).left) ∧
    ∀ t : TypeSpec, t.Throughout Schema.SelfContained → ∀ v st, v.unshared = true →
      (∀ r key, t.Grows v (t.check r key v st).left) ∧ t.Grows v (t.takes v st).left := by
  refine Schema.induction ⟨?schema, ?scalar, ?nested, ?untyped, ?array⟩
  case schema =>
    intro s below contained v st own
    have each := ((Schema.throughout_iff s).mp contained).2
    exact Schema.walk_grows_of_each contained
      (fun r mem v st own => (below r mem (each r mem) v st own).1 r r.name) own st
  case scalar => exact fun _ _ _ _ _ => ⟨fun _ _ => rfl, rfl⟩
  case nested =>
    intro s below contained v st own
    refine ⟨fun r key => ?_, below contained v st own⟩
    rw [TypeSpec.check]
    split
    · exact Schema.grows_self.2 _ v
    · exact below contained v st own
  case untyped =>
    intro _ v st _
    refine ⟨fun r key => ?_, rfl⟩
    rw [TypeSpec.check]
    split <;> rfl
  case array =>
    intro item below contained v st own
    have grows := Walk.ofItems_grows (fun x st own => (below contained x st own).2) own st
    refine ⟨fun r key => ?_, grows⟩
    rw [TypeSpec.check]
    split
    · exact Schema.grows_self.2 _ v
    · exact grows

/-- The names that are added stand in the order of the rules. -/
theorem AddedGrow.keys_sublist {rules : List Rule} {writable : Bool} {entries added : Entries}
    (grow : AddedGrow rules writable entries added) :
    added.keys.Sublist (rules.map (·.name)) ∧ (writable = false → added = []) := by
  induction rules generalizing added with
  | nil =>
      cases grow
      exact ⟨.slnil, fun _ => rfl⟩
  | cons r rest ih =>
      rcases grow with later | ⟨canWrite, -, v, more, rfl, -, later⟩
      · exact (ih later).imp_left (.cons r.name)
      · refine ⟨(ih later).1.cons_cons r.name, fun frozen => ?_⟩
        cases canWrite.symm.trans frozen

/-- No key goes and none moves; further ones are names of rules, in their order, and stand at
the end. Mappings that cannot be written to get none. -/
theorem EntriesGrow.keys {rules : List Rule} {writable : Bool} {before after : Entries}
    (grow : EntriesGrow rules writable before after) :
    ∃ more, after.keys = before.keys ++ more ∧ more.Sublist (rules.map (·.name)) ∧
      (writable = false → more = []) := by
  obtain ⟨kept, added, rfl, all, grown⟩ := grow
  obtain ⟨sublist, frozen⟩ := grown.keys_sublist
  refine ⟨added.keys, ?_, sublist, fun own => by rw [frozen own]; rfl⟩
  have same : Entries.keys kept = Entries.keys before := by
    clear grown
    induction all with
    | nil => rfl
    | cons head _ ih => rw [Entries.keys_cons, Entries.keys_cons, head.1, ih]
  rw [← same, Entries.keys, List.map_append]
  rfl

/-- Validating data that are a tree lets them become only what the schema does, whatever
comes of the run, and a report shows them as they were left. -/
theorem Schema.validate_grows {s : Schema} (contained : s.Throughout Schema.SelfContained)
    {v : Value} (tree : v.unshared = true) (st : Store) :
    s.Grows v (s.validate v st).left ∧
      ∀ report, (s.validate v st).result = .ok report → report.data = (s.validate v st).left := by
  refine ⟨Schema.grows.1 s contained v st tree, fun report reported => ?_⟩
  obtain ⟨found, -, rfl⟩ := Declaration.map_eq_ok.mp reported
  rfl

/-- Whether a rule has no custom validator and no producer but that of a type. -/
def Rule.isSimple (r : Rule) : Bool :=
  match r.default with
  | some (.callable (.function _ _)) => false
  | _ => r.custom.isNone

theorem Rule.selfContained_of_isSimple {r : Rule} (simple : r.isSimple = true) :
    r.SelfContained := by
  rw [isSimple] at simple
  split at simple
  · cases simple
  next other =>
    refine ⟨Option.isNone_iff_eq_none.mp simple, fun f isProducer => ?_⟩
    cases f with
    | token t =>
        constructor
        · intro st v made
          cases t <;> cases made <;> rfl
        · intro st fault failed
          cases t <;> cases failed <;> rfl
    | function id name => exact absurd isProducer (other id name)

end

/-- Parcels with a weight, and a label that is made where it is missing. -/
def parcelsDeclaration : Value :=
  .object
    [(.text "parcels", .list [.object
        [(.text "to", .callable (.token .text)),
          (.text "weight", .object
            [(.text "type", .callable (.token .integer)), (.text "default", .int 1)])]]),
      (.text "label", .object
        [(.text "type", .object [(.text "lines", .object
            [(.text "type", .callable (.token .integer)), (.text "default", .int 2)])]),
          (.text "default", .callable (.token .mapping))])]

/-- Of two parcels the first does not match. -/
def parcels : Value :=
  .object
    [(.text "label", .null),
      (.text "parcels", .list [.object [(.text "weight", .null)], .object []])]

open WithoutUserCode in
theorem validate_grows_parcels :
    ∃ s, Declaration.compile parcelsDeclaration true = .ok s ∧
      s.Throughout Schema.SelfContained ∧ parcels.unshared = true ∧
      s.Grows parcels (s.validate parcels Store.empty).left ∧
      (s.validate parcels Store.empty).left = .object
        [(.text "label", .object [(.text "lines", .int 2)]),
          (.text "parcels", .list [.object [(.text "weight", .int 1)], .object []])] := by
  have contained (s : Schema) (compiled : Declaration.compile parcelsDeclaration true = .ok s) :
      s.Throughout Schema.SelfContained := by
    cases compiled
    have simple {rules : List Rule} (all : rules.all Rule.isSimple = true) :
        ∀ r ∈ rules, r.SelfContained := fun r mem =>
      Rule.selfContained_of_isSimple (List.all_eq_true.mp all r mem)
    refine ⟨⟨⟨?_, ?_⟩, simple rfl⟩, ⟨⟨⟨?_, ?_⟩, simple rfl⟩, trivial, trivial, trivial⟩,
      ⟨⟨⟨?_, ?_⟩, simple rfl⟩, trivial, trivial⟩, trivial⟩ <;>
      simp [Value.identity?, Declaration.requiredRule, Rule.ofType]
  exact ⟨_, rfl, contained _ rfl, rfl, (Schema.validate_grows (contained _ rfl) rfl _).1, rfl⟩

end DataContract
