/-
# Values up to the order of keys

Two trees may differ in nothing but the order in which their mappings hold their keys, at
any depth. Such trees are told apart neither by looking up a key nor by what they look
like from outside, and writing related values under a key relates them again. The keys
of a mapping have to be apart, as those of a mapping are: the place of a key decides what
is found only if there are two of them.
-/

import DataContract.Proofs.Value.Entries
import Mathlib.Data.List.Forall2
import Mathlib.Data.List.Perm.Basic

set_option autoImplicit false

namespace DataContract

/-- No two keys are the same. Keys without an identity, such as the undefined number, are never
the same as another key. -/
def Entries.Apart (entries : Entries) : Prop :=
  entries.keys.Pairwise fun k l => ∀ i, k.identity? = some i → l.identity? ≠ some i

mutual

/-- Two trees are the same up to the order of the keys of their mappings, at any depth. Nothing in
them is shared, and the keys of every mapping are apart. -/
def Value.Reordered : Value → Value → Prop
  | .list items, w => ∃ others, w = .list others ∧ ItemsReordered items others
  | .tuple items, w => ∃ others, w = .tuple others ∧ ItemsReordered items others
  | .object entries, w =>
    ∃ others, w = .object others ∧ Entries.Apart entries ∧
      ∃ same, EntriesReplaced entries same ∧ same.Perm others
  | .frozen entries, w =>
    ∃ others, w = .frozen others ∧ Entries.Apart entries ∧
      ∃ same, EntriesReplaced entries same ∧ same.Perm others
  | .schema id s, w => w = .schema id s ∧ Entries.Apart (Value.schemaEntries s)
  | .shared _, _ => False
  | v, w => w = v
  termination_by structural v => v

/-- Items at the same places are the same up to the order of keys. -/
def ItemsReordered : List Value → List Value → Prop
  | [], others => others = []
  | v :: rest, others =>
    ∃ w more, others = w :: more ∧ v.Reordered w ∧ ItemsReordered rest more
  termination_by structural items => items

/-- The same keys in the same order, over values that are the same up to the order of keys. -/
def EntriesReplaced : List (Value × Value) → List (Value × Value) → Prop
  | [], others => others = []
  | (k, v) :: rest, others =>
    ∃ w more, others = (k, w) :: more ∧ v.Reordered w ∧ EntriesReplaced rest more
  termination_by structural entries => entries

end

/-- Two entries with one key and values that are the same up to the order of keys. -/
structure Replaced (e f : Value × Value) : Prop where
  key : f.1 = e.1
  value : e.2.Reordered f.2

/-- The entries of two mappings that are the same up to the order of keys. -/
structure Entries.Reordered (entries others : Entries) : Prop where
  apart : entries.Apart
  same : ∃ same, List.Forall₂ Replaced entries same ∧ same.Perm others

theorem itemsReordered_iff (items others : List Value) :
    ItemsReordered items others ↔ List.Forall₂ Value.Reordered items others := by
  induction items generalizing others with
  | nil => rw [ItemsReordered, List.forall₂_nil_left_iff]
  | cons v rest ih =>
      rw [ItemsReordered, List.forall₂_cons_left_iff]
      constructor
      · rintro ⟨w, more, rfl, head, tail⟩
        exact ⟨w, more, head, (ih more).mp tail, rfl⟩
      · rintro ⟨w, more, head, tail, rfl⟩
        exact ⟨w, more, rfl, head, (ih more).mpr tail⟩

theorem entriesReplaced_iff (entries others : Entries) :
    EntriesReplaced entries others ↔ List.Forall₂ Replaced entries others := by
  induction entries generalizing others with
  | nil => rw [EntriesReplaced, List.forall₂_nil_left_iff]
  | cons e rest ih =>
      obtain ⟨k, v⟩ := e
      rw [EntriesReplaced, List.forall₂_cons_left_iff]
      constructor
      · rintro ⟨w, more, rfl, head, tail⟩
        exact ⟨(k, w), more, ⟨rfl, head⟩, (ih more).mp tail, rfl⟩
      · rintro ⟨⟨_, w⟩, more, ⟨rfl, head⟩, tail, rfl⟩
        exact ⟨w, more, rfl, head, (ih more).mpr tail⟩

/-- A value that is not shared and has no parts that can change. -/
def Value.isLeaf : Value → Bool
  | .list _ | .tuple _ | .object _ | .frozen _ | .shared _ => false
  | _ => true

/-- How two values can be the same up to the order of keys. -/
inductive Value.SameUpToKeys : Value → Value → Prop
  | list {items others : List Value} (each : List.Forall₂ Value.Reordered items others) :
      SameUpToKeys (.list items) (.list others)
  | tuple {items others : List Value} (each : List.Forall₂ Value.Reordered items others) :
      SameUpToKeys (.tuple items) (.tuple others)
  | object {entries others : Entries} (related : entries.Reordered others) :
      SameUpToKeys (.object entries) (.object others)
  | frozen {entries others : Entries} (related : entries.Reordered others) :
      SameUpToKeys (.frozen entries) (.frozen others)
  | leaf {v : Value} (own : v.isLeaf = true)
      (apart : ∀ entries, v.entries? = some entries → entries.Apart) : SameUpToKeys v v

theorem Value.reordered_iff (v w : Value) : v.Reordered w ↔ v.SameUpToKeys w := by
  constructor
  · intro related
    cases v with
    | list items =>
        obtain ⟨others, rfl, each⟩ := related
        exact .list ((itemsReordered_iff items others).mp each)
    | tuple items =>
        obtain ⟨others, rfl, each⟩ := related
        exact .tuple ((itemsReordered_iff items others).mp each)
    | object entries =>
        obtain ⟨others, rfl, apart, same, replaced, perm⟩ := related
        exact .object ⟨apart, same, (entriesReplaced_iff entries same).mp replaced, perm⟩
    | frozen entries =>
        obtain ⟨others, rfl, apart, same, replaced, perm⟩ := related
        exact .frozen ⟨apart, same, (entriesReplaced_iff entries same).mp replaced, perm⟩
    | schema id s =>
        obtain ⟨rfl, apart⟩ := related
        refine .leaf rfl ?_
        rintro _ ⟨⟩
        exact apart
    | shared cell => exact related.elim
    | _ =>
        cases (related : w = _)
        exact .leaf rfl nofun
  · rintro (each | each | ⟨apart, same, replaced, perm⟩ | ⟨apart, same, replaced, perm⟩ |
      ⟨own, apart⟩)
    · exact ⟨_, rfl, (itemsReordered_iff _ _).mpr each⟩
    · exact ⟨_, rfl, (itemsReordered_iff _ _).mpr each⟩
    · exact ⟨_, rfl, apart, same, (entriesReplaced_iff _ same).mpr replaced, perm⟩
    · exact ⟨_, rfl, apart, same, (entriesReplaced_iff _ same).mpr replaced, perm⟩
    · cases v with
      | list _ | tuple _ | object _ | frozen _ | shared _ => cases own
      | schema id s => exact ⟨rfl, apart _ rfl⟩
      | _ => exact rfl

namespace Entries

variable {entries others : Entries} {n v w : Value} {i : Identity}

theorem apart_cons (e : Value × Value) (rest : Entries) :
    Apart (e :: rest) ↔
      (∀ k ∈ rest.keys, ∀ i, e.1.identity? = some i → k.identity? ≠ some i) ∧ rest.Apart := by
  rw [Apart, keys_cons, List.pairwise_cons, Apart]

theorem Apart.sublist (apart : entries.Apart) (sub : List.Sublist others entries) :
    others.Apart :=
  List.Pairwise.sublist (sub.map Prod.fst) apart

theorem Apart.perm (apart : entries.Apart) (perm : entries.Perm others) : others.Apart := by
  refine (List.Perm.pairwise_iff ?_ (perm.map Prod.fst)).mp apart
  exact fun differ i own same => differ i same own

/-- Of two keys that are apart at most one is found. -/
theorem Apart.equal_once {e f : Value × Value} {rest : Entries} (apart : Apart (e :: f :: rest))
    (known : n.identity? = some i) (found : e.1.equal n = true) : f.1.equal n = false := by
  rw [Value.equal_iff_of_identity?_right known] at found
  rw [Bool.eq_false_iff, ne_eq, Value.equal_iff_of_identity?_right known]
  exact ((apart_cons _ _).mp apart).1 f.1 List.mem_cons_self i found

/-- Where keys are apart, their order does not matter to what is found. -/
theorem get?_perm (known : n.identity? = some i) (perm : entries.Perm others)
    (apart : entries.Apart) : entries.get? n = others.get? n := by
  induction perm with
  | nil => rfl
  | cons e _ ih =>
      obtain ⟨k, v⟩ := e
      rw [get?, get?, ih ((apart_cons _ _).mp apart).2]
  | swap e f rest =>
      obtain ⟨k, v⟩ := e
      obtain ⟨l, w⟩ := f
      rw [get?, get?, get?, get?]
      cases found : l.equal n with
      | true => simp [apart.equal_once known found]
      | false => simp
  | trans first _ ih ih' => exact (ih apart).trans (ih' (apart.perm first))

/-- Where keys are apart, their order does not matter to what is written. -/
theorem put_perm (known : n.identity? = some i) (v : Value) (perm : entries.Perm others)
    (apart : entries.Apart) : (entries.put n v).Perm (others.put n v) := by
  induction perm with
  | nil => exact .refl _
  | cons e perm ih =>
      obtain ⟨k, old⟩ := e
      rw [put, put]
      split
      · exact perm.cons _
      · exact (ih ((apart_cons _ _).mp apart).2).cons _
  | swap e f rest =>
      obtain ⟨k, old⟩ := e
      obtain ⟨l, old'⟩ := f
      rw [put, put, put, put]
      cases found : l.equal n with
      | true =>
          rw [apart.equal_once known found, if_pos rfl, if_neg Bool.false_ne_true]
          exact .swap _ _ _
      | false =>
          rw [if_neg Bool.false_ne_true, if_neg Bool.false_ne_true]
          split <;> exact .swap _ _ _
  | trans first _ ih ih' => exact (ih apart).trans (ih' (apart.perm first))

theorem Apart.put (known : n.identity? = some i) (apart : entries.Apart) (v : Value) :
    (entries.put n v).Apart := by
  rw [Apart, keys_put]
  split
  · exact apart
  next absent =>
    rw [contains, Option.not_isSome_iff_eq_none, get?_eq_none_iff] at absent
    refine List.pairwise_append.mpr ⟨apart, List.pairwise_singleton _ _, ?_⟩
    intro k mem l last j own same
    obtain ⟨e, inEntries, rfl⟩ := List.mem_map.mp mem
    rw [List.mem_singleton.mp last, known] at same
    cases same
    have differ := absent e inEntries
    rw [(Value.equal_iff_of_identity?_right known e.1).mpr own] at differ
    cases differ

/-- Where keys are apart, a key is found at most once. -/
theorem Apart.foundOnce (known : n.identity? = some i) (apart : entries.Apart) :
    entries.FoundOnce n := by
  refine List.Pairwise.imp (fun {k l} differ same => ?_) apart
  rw [Value.equal_iff_of_identity?_right known] at same
  rw [Bool.eq_false_iff, ne_eq, Value.equal_iff_of_identity?_right known]
  exact differ i same

/-- What is found under a key among entries with the same keys. -/
theorem get?_replaced (n : Value) (replaced : List.Forall₂ Replaced entries others) :
    Option.Rel Value.Reordered (entries.get? n) (others.get? n) := by
  induction replaced with
  | nil => exact .none
  | @cons e f _ _ head _ ih =>
      obtain ⟨k, v⟩ := e
      obtain ⟨_, w⟩ := f
      obtain ⟨rfl, value⟩ := head
      rw [get?, get?]
      split
      · exact .some value
      · exact ih

theorem put_replaced (n : Value) (written : v.Reordered w)
    (replaced : List.Forall₂ Replaced entries others) :
    List.Forall₂ Replaced (entries.put n v) (others.put n w) := by
  induction replaced with
  | nil => exact .cons ⟨rfl, written⟩ .nil
  | @cons e f _ _ head tail ih =>
      obtain ⟨k, old⟩ := e
      obtain ⟨_, old'⟩ := f
      obtain ⟨rfl, value⟩ := head
      rw [put, put]
      split
      · exact .cons ⟨rfl, written⟩ tail
      · exact .cons ⟨rfl, value⟩ ih

theorem keys_replaced (replaced : List.Forall₂ Replaced entries others) :
    others.keys = entries.keys := by
  induction replaced with
  | nil => rfl
  | cons head _ ih => rw [keys_cons, keys_cons, head.key, ih]

theorem Apart.replaced (apart : entries.Apart) (replaced : List.Forall₂ Replaced entries others) :
    others.Apart := by
  rw [Apart, keys_replaced replaced]
  exact apart

namespace Reordered

/-- Under a key with an identity nothing is found in either, or related values. -/
theorem get? (related : entries.Reordered others) (known : n.identity?.isSome = true) :
    Option.Rel Value.Reordered (entries.get? n) (others.get? n) := by
  obtain ⟨apart, same, replaced, perm⟩ := related
  obtain ⟨i, identity⟩ := Option.isSome_iff_exists.mp known
  rw [← get?_perm identity perm (apart.replaced replaced)]
  exact get?_replaced n replaced

/-- Writing related values under a key relates the entries again. -/
theorem put (related : entries.Reordered others) (known : n.identity?.isSome = true)
    (written : v.Reordered w) : (entries.put n v).Reordered (others.put n w) := by
  obtain ⟨apart, same, replaced, perm⟩ := related
  obtain ⟨i, identity⟩ := Option.isSome_iff_exists.mp known
  exact ⟨apart.put identity v, Entries.put same n w, put_replaced n written replaced,
    put_perm identity w perm (apart.replaced replaced)⟩

theorem keys (related : entries.Reordered others) : entries.keys.Perm others.keys := by
  obtain ⟨-, same, replaced, perm⟩ := related
  rw [← keys_replaced replaced]
  exact perm.map Prod.fst

theorem apart_right (related : entries.Reordered others) : others.Apart := by
  obtain ⟨apart, same, replaced, perm⟩ := related
  exact (apart.replaced replaced).perm perm

end Reordered

end Entries

end DataContract
