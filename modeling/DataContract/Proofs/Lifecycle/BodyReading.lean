/-
# Which keys a body has, and in which order

A body keeps all keys of a record, or only the declared ones where a schema drops the others
and they are not asked for. Each key that is kept is there once, over what the record held, and no
other key is. The keys stand as in the record, or the declared ones stand first, in the order of
the declaration and under its names, which may be other keys than the equal ones of the
record: `1`, `1.0` and `true` are one key. Both orders give one mapping, and the body of a body is
that body. Nothing is asked of the keys of a record but that no two of them are equal.
-/

import DataContract.Proofs.Lifecycle.Running
import DataContract.Proofs.Schema.Compiled
import DataContract.Proofs.Validation.Projection
import Mathlib.Data.List.Forall2

set_option autoImplicit false

namespace DataContract

/-! ## Mappings in another order -/

namespace Entries

/-- No two keys are equal. -/
def KeysDiffer (entries : Entries) : Prop := entries.keys.Pairwise fun k l => k.equal l = false

/-- Two entries with one value, under one key or under keys that are equal. -/
structure SameEntry (e f : Value × Value) : Prop where
  key : f.1 = e.1 ∨ e.1.equal f.1 = true
  value : f.2 = e.2

/-- Two mappings with the same entries, in whatever order. -/
def SameMapping (entries others : Entries) : Prop :=
  ∃ same, List.Forall₂ SameEntry entries same ∧ same.Perm others

variable {entries : Entries} {n : Value}

theorem SameMapping.refl (entries : Entries) : entries.SameMapping entries :=
  ⟨entries, List.forall₂_same.mpr fun _ _ => ⟨.inl rfl, rfl⟩, .refl _⟩

/-- Where no two keys are equal, each is found once. -/
theorem KeysDiffer.foundOnce (differ : entries.KeysDiffer) (key : n.IsKey) :
    entries.FoundOnce n := by
  refine List.Pairwise.imp (fun {k l} other same => ?_) differ
  have ahead : n.equal k = true := (key.symm k).symm.trans same
  rw [key.symm, ← key.alike ahead, other]

/-- What is found stands between entries that stay when it is removed. -/
theorem erase_of_get? {v : Value} (found : entries.get? n = some v) :
    ∃ before k after, entries = before ++ (k, v) :: after ∧ k.equal n = true ∧
      entries.erase n = before ++ after := by
  induction entries with
  | nil => cases found
  | cons e rest ih =>
      obtain ⟨k, old⟩ := e
      rw [get?] at found
      rw [erase]
      split at found
      next same =>
        cases found
        exact ⟨[], k, rest, rfl, same, by rw [if_pos same]; rfl⟩
      next other =>
        obtain ⟨before, l, after, rfl, same, erased⟩ := ih found
        exact ⟨(k, old) :: before, l, after, rfl, same, by rw [if_neg other, erased]; rfl⟩

/-- One entry can be put anywhere among others. -/
theorem SameMapping.insert {before after others : Entries} {k v : Value} (same : k.equal n = true)
    (related : SameMapping (before ++ after) others) :
    SameMapping (before ++ (k, v) :: after) ((n, v) :: others) := by
  obtain ⟨between, each, perm⟩ := related
  obtain ⟨first, second, front, back, rfl⟩ : ∃ first second, List.Forall₂ SameEntry before first ∧
      List.Forall₂ SameEntry after second ∧ between = first ++ second :=
    ⟨_, _, (List.forall₂_take_append between before after each.flip).flip,
      (List.forall₂_drop_append between before after each.flip).flip,
      (List.take_append_drop _ _).symm⟩
  exact ⟨first ++ (n, v) :: second, List.rel_append front (.cons ⟨.inr same, rfl⟩ back),
    List.perm_middle.trans (perm.cons _)⟩

end Entries

namespace Schema

/-- Putting declared entries first loses no entry and makes up none. -/
theorem orderEntries_sameMapping (rules : List Rule) (entries : Entries) :
    entries.SameMapping (orderEntries rules entries) := by
  induction rules generalizing entries with
  | nil => exact .refl entries
  | cons r rest ih =>
      rw [orderEntries]
      cases found : entries.get? r.name with
      | none => exact ih entries
      | some v =>
          obtain ⟨before, k, after, rfl, same, erased⟩ := Entries.erase_of_get? found
          dsimp only
          rw [erased]
          exact (ih (before ++ after)).insert same

/-- The names of a schema are keys, and no two of them are equal. -/
structure NamesDiffer (s : Schema) : Prop where
  keys : ∀ r ∈ s.rules, r.name.IsKey
  differ : s.rules.Pairwise fun r q => r.name.equal q.name = false

/-! ## Bodies -/

/-- What the bodies of a record are, in either order. -/
structure BodiesExact (s : Schema) (includeAll : Bool) (entries : Entries) : Prop where
  /-- Without an order of its own, a body has the entries that are kept as the record had them. -/
  unordered : s.project ⟨includeAll, false⟩ entries =
    entries.filter fun e => s.keeps includeAll e.1
  /-- An ordered body has what is found under the declared names, in the order of the rules, and
  then the other entries that are kept, as the record had them. -/
  ordered : s.project ⟨includeAll, true⟩ entries = declaredEntries s.rules entries ++
    entries.filter fun e => s.keeps includeAll e.1 && !s.declares e.1
  sameMapping : (s.project ⟨includeAll, false⟩ entries).SameMapping
    (s.project ⟨includeAll, true⟩ entries)
  differ : ∀ ordered, (s.project ⟨includeAll, ordered⟩ entries).KeysDiffer
  /-- Under a key that is kept a body holds what the record held, and under others nothing. -/
  get?_eq : ∀ ordered (n : Value), n.IsKey → (s.project ⟨includeAll, ordered⟩ entries).get? n =
    if s.keeps includeAll n then entries.get? n else none
  again : ∀ ordered, s.project ⟨includeAll, ordered⟩ (s.project ⟨includeAll, ordered⟩ entries) =
    s.project ⟨includeAll, ordered⟩ entries
  /-- Reading a body changes nothing, neither the record nor what else there is. -/
  reading : ∀ (st : Store) (id : Nat) (v : Validator) (report : Report),
    st.validators[id]? = some v → v.schema = s → v.last = some report →
    (st.head report.data).entries? = some entries → ∀ ordered,
      (readBody id ⟨includeAll, ordered⟩).runIn st =
        (.ok (s.project ⟨includeAll, ordered⟩ entries), st)

section Exact

variable {s : Schema} (names : s.NamesDiffer) {entries : Entries} (differ : entries.KeysDiffer)
  (includeAll : Bool)

include names differ

theorem project_ordered : s.project ⟨includeAll, true⟩ entries = declaredEntries s.rules entries ++
    entries.filter fun e => s.keeps includeAll e.1 && !s.declares e.1 := by
  have once (r : Rule) (mem : r ∈ s.rules) :
      (s.keptEntries includeAll entries).FoundOnce r.name := by
    rw [keptEntries_eq]
    exact (differ.foundOnce (names.keys r mem)).sublist List.filter_sublist
  have named : declaredEntries s.rules (s.keptEntries includeAll entries) =
      declaredEntries s.rules entries := declaredEntries_congr fun r mem =>
    (get?_keptEntries names.keys (names.keys r mem) includeAll entries).trans
      (keeps_name names.keys mem includeAll entries)
  have others : ((s.keptEntries includeAll entries).filter fun e => !s.declares e.1) =
      entries.filter fun e => s.keeps includeAll e.1 && !s.declares e.1 := by
    rw [keptEntries_eq, List.filter_filter]
    exact List.filter_congr fun e _ => Bool.and_comm _ _
  rw [← named, ← others]
  exact orderEntries_eq names.keys names.differ once

theorem keysDiffer_ordered : (s.project ⟨includeAll, true⟩ entries).KeysDiffer := by
  rw [project_ordered names differ, Entries.KeysDiffer, Entries.keys, List.map_append]
  refine List.pairwise_append.mpr ⟨?_, differ.sublist (List.filter_sublist.map Prod.fst), ?_⟩
  · have declared := keys_declaredEntries s.rules entries
    rw [Entries.keys] at declared
    rw [declared]
    exact List.pairwise_map.mpr (names.differ.sublist List.filter_sublist)
  -- A name differs from a key that no rule declares.
  · intro n inDeclared k inOthers
    have declared : n ∈ (declaredEntries s.rules entries).keys := inDeclared
    rw [keys_declaredEntries] at declared
    obtain ⟨r, held, rfl⟩ := List.mem_map.mp declared
    obtain ⟨e, kept, rfl⟩ := List.mem_map.mp inOthers
    have undeclared : s.declares e.1 = false := by
      simpa using (Bool.and_eq_true_iff.mp (List.mem_filter.mp kept).2).2
    simpa using List.any_eq_false.mp undeclared r (List.mem_of_mem_filter held)

/-- For every schema and every record in which no two keys are equal, whether other keys are asked
for or not: a body has exactly the keys that are kept, each once and over what the record
held. They stand in the order of the record, or the declared ones stand first in the order of the
rules and the others follow in the order of the record; both are one mapping, and the body of a body
is that body with its keys in their places. Reading a body leaves the store as it is. -/
theorem bodies_exact : s.BodiesExact includeAll entries where
  unordered := keptEntries_eq s includeAll entries
  ordered := project_ordered names differ includeAll
  sameMapping := orderEntries_sameMapping s.rules (s.keptEntries includeAll entries)
  differ ordered := by
    cases ordered with
    | false =>
        have kept : s.project ⟨includeAll, false⟩ entries =
            entries.filter fun e => s.keeps includeAll e.1 := keptEntries_eq s includeAll entries
        rw [kept]
        exact differ.sublist (List.filter_sublist.map Prod.fst)
    | true => exact keysDiffer_ordered names differ includeAll
  get?_eq _ _ own := get?_project names.keys own _ entries
  again _ := project_again names.keys _ entries
  reading st id v report held same last mapping ordered := by
    rw [readBody_runIn held last, mapping, ← same]

end Exact

end Schema

/-- The names of a compiled schema differ if the keys of its declaration do. -/
theorem Declaration.namesDiffer_of_compile {declaration : Value} {own : Entries}
    (declared : declared? declaration = some own) (keys : ∀ k ∈ own.keys, k.IsKey)
    (differ : own.KeysDiffer) {strict : Bool} {s : Schema}
    (compiled : compile declaration strict = .ok s) : s.NamesDiffer := by
  rw [compile_of_declared strict declared] at compiled
  obtain ⟨rules, inner, rfl⟩ := map_eq_ok.mp compiled
  have names := names_sublist inner
  constructor
  · exact fun r mem => keys r.name (names.subset (List.mem_map_of_mem (f := (·.name)) mem))
  · exact List.pairwise_map.mp (List.Pairwise.sublist names differ)

/-- A record with a number for a name, a truth value for the same key, and an undefined number. -/
theorem bodies_exact_ballot : ∃ s,
    let ballot : Entries := [(.float .nan, .int 0), (.text "title", .text "On keys"),
      (.bool true, .text "first")]
    Declaration.compile (.object [(.int 1, .callable (.token .text)),
      (.text "title", .callable (.token .text))]) false = .ok s ∧ s.NamesDiffer ∧
      ballot.KeysDiffer ∧ s.BodiesExact true ballot ∧
      s.project ⟨true, true⟩ ballot = [(.int 1, .text "first"), (.text "title", .text "On keys"),
        (.float .nan, .int 0)] := by
  obtain ⟨s, compiled⟩ : ∃ s, Declaration.compile (.object [(.int 1, .callable (.token .text)),
      (.text "title", .callable (.token .text))]) false = .ok s := ⟨_, rfl⟩
  have names : s.NamesDiffer := by
    refine Declaration.namesDiffer_of_compile rfl (fun k mem => .of_simple ?_) ?_ compiled
    · rcases List.mem_cons.mp mem with rfl | mem
      · rfl
      · cases List.mem_singleton.mp mem
        rfl
    · exact List.pairwise_pair.mpr rfl
  have differ : Entries.KeysDiffer [(.float .nan, .int 0), (.text "title", .text "On keys"),
      (.bool true, .text "first")] := by
    rw [Entries.KeysDiffer]
    decide +kernel
  have exact := Schema.bodies_exact names differ true
  refine ⟨s, compiled, names, differ, exact, ?_⟩
  cases compiled
  rfl

end DataContract
