/-
# What written values are read back as

JSON represents nothing, truth values, finite numbers, texts, lists and mappings from
texts. Of these, a floating-point number whose text has no point is read back as that text;
everything else is read back as it is, provided that integers do not have too many digits
and that keys are not too long. The conditions are about the parts of a value, at any depth.
-/

import DataContract.Proofs.Yaml.ScalarReading

set_option autoImplicit false

namespace DataContract

/-! ### Parts of values -/

mutual

/-- A value and what stands in its lists and mappings, at any depth. -/
def Value.parts : Value → List Value
  | .list items => .list items :: itemParts items
  | .object entries => .object entries :: entryParts entries
  | v => [v]
  termination_by structural v => v

/-- The parts of some items. -/
def itemParts : List Value → List Value
  | [] => []
  | v :: rest => v.parts ++ itemParts rest
  termination_by structural items => items

/-- The parts of the values of some entries. -/
def entryParts : List (Value × Value) → List Value
  | [] => []
  | (_, v) :: rest => v.parts ++ entryParts rest
  termination_by structural entries => entries

end

/-- Whether all parts of a value have a property. -/
def Value.Everywhere (P : Value → Prop) (v : Value) : Prop := ∀ part ∈ v.parts, P part

instance {P : Value → Prop} [DecidablePred P] (v : Value) : Decidable (v.Everywhere P) :=
  inferInstanceAs (Decidable (∀ part ∈ v.parts, P part))

/-- A property of a value without parts is one of the value itself. -/
theorem Value.everywhere_of_parts {P : Value → Prop} {v : Value} (alone : v.parts = [v])
    (holds : P v) : v.Everywhere P := by
  rw [Everywhere, alone]
  exact List.forall_mem_singleton.2 holds

theorem itemParts_eq (items : List Value) : itemParts items = items.flatMap Value.parts := by
  induction items with
  | nil => rfl
  | cons v rest ih => rw [itemParts, ih, List.flatMap_cons]

theorem entryParts_eq (entries : List (Value × Value)) :
    entryParts entries = entries.flatMap fun e => e.2.parts := by
  induction entries with
  | nil => rfl
  | cons e rest ih => rw [entryParts, ih, List.flatMap_cons]

theorem Value.everywhere_list {P : Value → Prop} (items : List Value) :
    (Value.list items).Everywhere P ↔ P (.list items) ∧ ∀ v ∈ items, v.Everywhere P := by
  rw [Everywhere, parts, itemParts_eq, List.forall_mem_cons]
  apply and_congr_right
  intro _
  constructor
  · intro all v mem part inside
    exact all part (List.mem_flatMap.2 ⟨v, mem, inside⟩)
  · intro all part mem
    obtain ⟨v, own, inside⟩ := List.mem_flatMap.1 mem
    exact all v own part inside

theorem Value.everywhere_object {P : Value → Prop} (entries : List (Value × Value)) :
    (Value.object entries).Everywhere P ↔
      P (.object entries) ∧ ∀ e ∈ entries, e.2.Everywhere P := by
  rw [Everywhere, parts, entryParts_eq, List.forall_mem_cons]
  apply and_congr_right
  intro _
  constructor
  · intro all e mem part inside
    exact all part (List.mem_flatMap.2 ⟨e, mem, inside⟩)
  · intro all part mem
    obtain ⟨e, own, inside⟩ := List.mem_flatMap.1 mem
    exact all e own part inside

/-! ### Values that JSON represents -/

open Yaml (IsPrintableText)

/-- Entries under texts. -/
def textEntries (entries : List (String × Value)) : Entries :=
  entries.map fun e => (.text e.1, e.2)

/-- The values that JSON represents: numbers are finite, texts are printable, and the keys
of a mapping are different texts. -/
inductive Represented : Value → Prop
  | null : Represented .null
  | bool (b : Bool) : Represented (.bool b)
  | int (n : Int) : Represented (.int n)
  | float {x : Binary64} : x.IsNormal → Represented (.float x)
  | text {s : String} : IsPrintableText s → Represented (.text s)
  | list {items : List Value} : (∀ v ∈ items, Represented v) → Represented (.list items)
  | object {entries : List (String × Value)} : (∀ e ∈ entries, IsPrintableText e.1) →
      (entries.map (·.1)).Nodup → (∀ e ∈ entries, Represented e.2) →
      Represented (.object (textEntries entries))

/-- Whether an integer has few enough digits to be read. -/
def IntegerFits : Value → Prop
  | .int n => (toString n.natAbs).length ≤ Text.greatestDigitCount
  | _ => True

/-- Whether a text in quotes is short enough to be found as a key. -/
def KeyFits : Value → Prop
  | .text k => (Json.quoted k).length ≤ 1024
  | _ => True

/-- Whether the keys of a mapping are short enough. -/
def KeysFit : Value → Prop
  | .object entries => ∀ e ∈ entries, KeyFits e.1
  | _ => True

/-- Whether a floating-point number is written with a point. -/
def HasPoint : Value → Prop
  | .float x => '.' ∈ x.text.toList
  | _ => True

instance : DecidablePred IntegerFits := fun v => by
  cases v
  case int n => exact inferInstanceAs (Decidable ((toString n.natAbs).length ≤ _))
  all_goals exact isTrue trivial

instance : DecidablePred KeyFits := fun k => by
  cases k
  case text s => exact inferInstanceAs (Decidable ((Json.quoted s).length ≤ 1024))
  all_goals exact isTrue trivial

instance : DecidablePred KeysFit := fun v => by
  cases v
  case object entries => exact inferInstanceAs (Decidable (∀ e ∈ entries, KeyFits e.1))
  all_goals exact isTrue trivial

instance : DecidablePred HasPoint := fun v => by
  cases v
  case float x => exact inferInstanceAs (Decidable ('.' ∈ x.text.toList))
  all_goals exact isTrue trivial

mutual

/-- What a value is read back as: a number that is written without a point becomes a
text. -/
def Value.reread : Value → Value
  | .float x => if '.' ∈ x.text.toList then .float x else .text x.text
  | .list items => .list (rereadItems items)
  | .object entries => .object (rereadEntries entries)
  | v => v
  termination_by structural v => v

/-- What some items are read back as. -/
def rereadItems : List Value → List Value
  | [] => []
  | v :: rest => v.reread :: rereadItems rest
  termination_by structural items => items

/-- What some entries are read back as. -/
def rereadEntries : List (Value × Value) → List (Value × Value)
  | [] => []
  | (k, v) :: rest => (k, v.reread) :: rereadEntries rest
  termination_by structural entries => entries

end

theorem rereadItems_eq_map (items : List Value) : rereadItems items = items.map Value.reread := by
  induction items with
  | nil => rfl
  | cons v rest ih => rw [rereadItems, ih, List.map_cons]

theorem rereadEntries_textEntries (entries : List (String × Value)) :
    rereadEntries (textEntries entries) =
      textEntries (entries.map fun e => (e.1, e.2.reread)) := by
  induction entries with
  | nil => rfl
  | cons e rest ih => exact congrArg _ ih

/-- Items are read back as they are exactly if each of them is. -/
theorem rereadItems_eq_self_iff (items : List Value) :
    rereadItems items = items ↔ ∀ v ∈ items, v.reread = v := by
  rw [rereadItems_eq_map]
  conv_lhs => rw [← List.map_id items, List.map_map]
  exact List.map_inj_left

theorem rereadEntries_eq_self_iff (entries : List (Value × Value)) :
    rereadEntries entries = entries ↔ ∀ e ∈ entries, e.2.reread = e.2 := by
  induction entries with
  | nil => exact ⟨fun _ _ mem => absurd mem List.not_mem_nil, fun _ => rfl⟩
  | cons e rest ih =>
      rw [rereadEntries, List.cons.injEq, Prod.mk.injEq, ih, List.forall_mem_cons]
      exact and_congr_left fun _ => and_iff_right rfl

/-- A value is read back as it is exactly if all its numbers are written with a point. -/
theorem Represented.reread_eq_self_iff {v : Value} (represented : Represented v) :
    v.reread = v ↔ v.Everywhere HasPoint := by
  induction represented with
  | null | bool | int | text => simp [Value.reread, Value.Everywhere, Value.parts, HasPoint]
  | float => simp [Value.reread, Value.Everywhere, Value.parts, HasPoint]
  | list _ ih =>
      rw [Value.reread, Value.list.injEq, rereadItems_eq_self_iff, Value.everywhere_list]
      exact (forall₂_congr ih).trans (and_iff_right trivial).symm
  | object _ _ _ ih =>
      rw [Value.reread, Value.object.injEq, rereadEntries_eq_self_iff, Value.everywhere_object,
        textEntries, List.forall_mem_map, List.forall_mem_map]
      exact (forall₂_congr ih).trans (and_iff_right trivial).symm

end DataContract
