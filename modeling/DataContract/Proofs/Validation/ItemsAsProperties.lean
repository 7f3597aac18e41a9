/-
# Items are judged like properties

Whether a value has a type is asked in two ways. An item of an array is asked by a question that
answers yes or no, and the value of a property by a check that finds messages. For a rule that
asks for the type alone both are one: the question is the check, of which only is told whether it
found nothing. They write the same defaults into the value and fail in the same cases, whatever
custom validators do below.

A check folds the messages of a nested record, and a question does not. So the messages of that
record have to be texts; those of the records below it are folded either way.
-/

import DataContract.Proofs.Validation.Folding

set_option autoImplicit false

namespace DataContract

/-- A rule that asks nothing of a value but its type. -/
structure Rule.OnlyType (r : Rule) : Prop where
  choices : r.choices = none
  pattern : r.pattern = none
  min : r.min = none
  max : r.max = none

theorem Rule.onlyType_ofType (name : Value) (type : TypeSpec) : (Rule.ofType name type).OnlyType :=
  ⟨rfl, rfl, rfl, rfl⟩

namespace Rule.OnlyType

variable {r : Rule} (only : r.OnlyType) (key : Value)

include only

theorem textFailures (s : String) : r.textFailures key s = [] := by
  rw [Rule.textFailures, only.choices, only.pattern, only.min, only.max]
  rfl

theorem numberFailures (n : Number) : r.numberFailures key n = [] := by
  rw [Rule.numberFailures, only.min, only.max]
  rfl

theorem lengthFailures (count : Nat) : r.lengthFailures key count = [] := by
  rw [Rule.lengthFailures, only.min, only.max]
  rfl

/-- The check of a scalar kind finds nothing exactly if the value fits. -/
theorem fits_eq (kind : Scalar) (v : Value) :
    kind.fits v = (r.scalarFailures key kind v).map List.isEmpty := by
  have misfit (message : String) :
      kind.fits v =
        ((kind.fits v).map fun ok => failureIf (!ok) message).map List.isEmpty := by
    cases kind.fits v with
    | error f => rfl
    | ok b => cases b <;> rfl
  cases kind with
  | text =>
      cases v with
      | text s =>
          have searchable : r.hasBytesPattern = false := by
            rw [hasBytesPattern, only.pattern, Option.any_none]
          rw [scalarFailures, searchable, only.textFailures]
          rfl
      | _ => rfl
  | number =>
      rw [scalarFailures.eq_def]
      cases number : v.number? with
      | some n => simp [Scalar.fits, Value.isNumber, number, only.numberFailures, Except.map]
      | none => simp [Scalar.fits, Value.isNumber, number, Except.map]
  | boolean | object | function | date | uuid version => exact misfit _

end Rule.OnlyType

/-- The messages of a nested record are folded into one, so that there is one exactly if there
were any. -/
theorem isEmpty_fold (key : Value) {violations : List Violation}
    (spoken : ∀ v ∈ violations, v.message.Spoken) :
    ((if violations.isEmpty then .ok []
      else (foldMessages key (flattenMessages violations)).map ([·])) :
        Except Fault (List Message)).map List.isEmpty = .ok violations.isEmpty := by
  obtain ⟨m, folded⟩ := foldMessages_of_spoken key spoken
  rw [folded]
  cases violations <;> rfl

/-- What is no list or tuple is not asked about item by item. -/
theorem Walk.ofItems_of_not_array (walk : Walk Bool) {v : Value} {st : Store}
    (other : (st.head v).items? = none) : walk.ofItems v st = Visit.done false v st := by
  cases v with
  | shared cell => rw [ofItems, Value.isArray, other, Option.isSome_none, if_neg Bool.false_ne_true]
  | list _ | tuple _ => cases other
  | _ => rfl

section

variable [UserCode]

/-- Data that are no mapping are reported as such. -/
theorem Schema.walk_of_not_mapping (s : Schema) {v : Value} {st : Store}
    (other : (st.head v).isMapping = false) : s.walk v st = Visit.done [.notARecord] v st := by
  rw [← Value.isSome_home?, Option.isSome_eq_false_iff, Option.isNone_iff_eq_none] at other
  rw [walk_eq, Walk.ofEntries, other]

/-- Asking whether a type takes a value is checking the value by a rule that asks for the type
alone. -/
theorem TypeSpec.takes_eq_check {t : TypeSpec} (worded : ∀ s, t = .nested s → s.Worded) {r : Rule}
    (only : r.OnlyType) (key v : Value) (st : Store) :
    t.takes v st = (t.check r key v st).map List.isEmpty := by
  cases t with
  | scalar kind =>
      rw [takes, check, Visit.map, Visit.ofExcept, only.fits_eq key kind (st.head v)]
      cases r.scalarFailures key kind (st.head v) with
      | error f => rfl
      | ok texts => cases texts <;> rfl
  | nested s =>
      rw [takes, check]
      cases mapping : (st.head v).isMapping with
      | false =>
          rw [s.walk_of_not_mapping mapping]
          rfl
      | true =>
          rw [Bool.not_true, if_neg Bool.false_ne_true, Visit.map, Visit.map, Visit.check]
          cases outcome : (s.walk v st).result with
          | error f => rfl
          | ok found =>
              have fold := isEmpty_fold key (s.walk_spoken (worded s rfl) outcome)
              rw [Except.bind, fold]
              rfl
  | array item =>
      cases item with
      | none =>
          rw [takes, check, Value.isArray]
          cases (st.head v).items? with
          | none => rfl
          | some items =>
              dsimp only
              rw [only.lengthFailures]
              rfl
      | some item =>
          rw [takes, check]
          cases array : (st.head v).items? with
          | none =>
              rw [item.takes.ofItems_of_not_array array]
              rfl
          | some items =>
              simp only [only.lengthFailures, List.map_nil, List.nil_append]
              rw [Visit.map, Visit.map]
              generalize item.takes.ofItems v st = w
              obtain ⟨result, left, store, tallies⟩ := w
              rcases result with f | _ | _ <;> rfl

/-- For every type and every value, whatever the store holds: an array takes the value as an item
exactly if the check of the type, by a rule that asks for the type alone, finds nothing; the one
fails just where the other does, in the same way; and both leave the value and the store alike.
The messages of the rules in the type may be any texts, its custom validators may do anything, and
the value may stand in a cell, and contain itself. -/
theorem TypeSpec.takes_iff_check {t : TypeSpec} (worded : t.Throughout Schema.Worded) {r : Rule}
    (own : r.type = t) (only : r.OnlyType) (key v : Value) (st : Store) :
    ((t.takes v st).result = .ok true ↔ (r.type.check r key v st).result = .ok []) ∧
      (∀ f, (t.takes v st).result = .error f ↔ (r.type.check r key v st).result = .error f) ∧
      (t.takes v st).left = (r.type.check r key v st).left ∧
      (t.takes v st).store = (r.type.check r key v st).store := by
  subst own
  have outermost (s : Schema) (nested : r.type = .nested s) : s.Worded := by
    rw [nested, TypeSpec.Throughout, Schema.throughout_iff] at worded
    exact worded.1
  have same := takes_eq_check outermost only key v st
  rw [same]
  refine ⟨?_, fun f => ?_, rfl, rfl⟩
  · rw [Visit.map]
    cases (r.type.check r key v st).result with
    | error f => simp [Except.map]
    | ok messages => simp [Except.map]
  · rw [Visit.map]
    cases (r.type.check r key v st).result with
    | error g => simp [Except.map]
    | ok messages => simp [Except.map]

end

namespace CarefulClerk

/-- Function 0 finds an article with a name of at least three letters, and function 1 takes a
note off the line it is asked about. -/
scoped instance : UserCode :=
  ⟨fun id => { Function.refusing with
    judge := fun _ v record _ st =>
      match id, v with
      | 0, .text s => (⟨.ok (.bool (decide (3 ≤ s.length))), record, none⟩, st)
      | _, _ =>
        let kept := ((record.entries?).getD []).filter fun e => !e.1.equal (.text "note")
        (⟨.ok (.bool true), record.withEntries kept, none⟩, st) }⟩

end CarefulClerk

/-- A line of an order names its article, and counts one if it does not say how many. -/
def lineSchema : Schema :=
  ⟨[{ Rule.ofType (.text "article") (.scalar .text) with
      required := true, custom := some (.function 0 "named"),
      message := some (.text "Which article?") },
    { Rule.ofType (.text "count") (.scalar .number) with
      custom := some (.function 1 "tidy"), default := some (.int 1) }], true⟩

open CarefulClerk in
/-- The second line names no article; it gets its count all the same, and the first one loses its
note. -/
theorem takes_iff_check_lines :
    let lines : Value := .list [.object [(.text "article", .text "tea"), (.text "note", .text "!")],
      .object []]
    let r := Rule.ofType (.text "lines") (.array (some (.nested lineSchema)))
    r.type.Throughout Schema.Worded ∧ r.OnlyType ∧
      (r.type.takes lines .empty).result = .ok false ∧
      (r.type.check r r.name lines .empty).result ≠ .ok [] ∧
      (r.type.check r r.name lines .empty).left =
        .list [.object [(.text "article", .text "tea"), (.text "count", .int 1)],
          .object [(.text "count", .int 1)]] := by
  intro lines r
  have worded : r.type.Throughout Schema.Worded := by
    refine ⟨List.forall_mem_cons.mpr ⟨?_, List.forall_mem_singleton.mpr ?_⟩,
      trivial, trivial, trivial⟩
    · intro m own
      cases own
      exact ⟨_, rfl⟩
    · intro m own
      cases own
  have first : (TypeSpec.nested lineSchema).takes
        (.object [(.text "article", .text "tea"), (.text "note", .text "!")]) .empty =
      ⟨.ok true, .object [(.text "article", .text "tea"), (.text "count", .int 1)], .empty,
        [⟨2, 0⟩]⟩ := rfl
  have second : (TypeSpec.nested lineSchema).takes (.object []) .empty =
      ⟨.ok false, .object [(.text "count", .int 1)], .empty, [⟨2, 1⟩]⟩ := rfl
  have asked : r.type.takes lines .empty =
      ⟨.ok false, .list [.object [(.text "article", .text "tea"), (.text "count", .int 1)],
        .object [(.text "count", .int 1)]], .empty, [⟨2, 0⟩, ⟨2, 1⟩]⟩ := by
    show ((TypeSpec.nested lineSchema).takes.ofItems lines .empty) = _
    rw [Walk.ofItems, Walk.allItems, first]
    dsimp only
    rw [Walk.allItems, second]
    rfl
  obtain ⟨passes, -, left, -⟩ := TypeSpec.takes_iff_check worded rfl
    (Rule.onlyType_ofType (.text "lines") r.type) r.name lines .empty
  rw [asked] at passes left
  refine ⟨worded, Rule.onlyType_ofType _ _, by rw [asked], fun none => ?_, left.symm⟩
  cases passes.mpr none

end DataContract
