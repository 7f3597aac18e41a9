/-
# Values that have a JSON text

Which values can be written is a matter of their sorts and of the keys of their
mappings alone; how they are laid out plays no part in it.
-/

import DataContract.Json
import Mathlib.Tactic.Common

set_option autoImplicit false

namespace DataContract.Json

/-- Whether a key has a text: texts, numbers, truth values and nothing have one. -/
def isWritableKey : Value → Bool
  | .text _ | .int _ | .float _ | .bool _ | .null => true
  | _ => false

mutual

/-- Whether a value can be written; `lenient` says that values without a JSON form are
written as the text by which they are shown. -/
def isWritable (lenient : Bool) : Value → Bool
  | .null | .bool _ | .int _ | .float _ | .text _ => true
  | .list items => allWritable lenient items
  | .tuple items => allWritable lenient items
  | .object entries => entriesWritable lenient entries
  | .shared _ => false
  | _ => lenient
  termination_by structural v => v

/-- Whether some items can be written. -/
def allWritable (lenient : Bool) : List Value → Bool
  | [] => true
  | v :: rest => isWritable lenient v && allWritable lenient rest
  termination_by structural items => items

/-- Whether some entries can be written. -/
def entriesWritable (lenient : Bool) : List (Value × Value) → Bool
  | [] => true
  | (k, v) :: rest => isWritableKey k && isWritable lenient v && entriesWritable lenient rest
  termination_by structural entries => entries

end

theorem keyText_isOk (k : Value) : (keyText k).isOk = isWritableKey k := by
  cases k <;> rfl

theorem isOk_map {ε α β : Type} (x : Except ε α) (f : α → β) : (x.map f).isOk = x.isOk := by
  cases x <;> rfl

/-- Two parts are written together exactly if both are. -/
theorem isOk_bind_map {ε α β γ : Type} (x : Except ε α) (y : Except ε β) (f : α → β → γ) :
    (x.bind fun a => y.map (f a)).isOk = (x.isOk && y.isOk) := by
  cases x <;> cases y <;> rfl

mutual

/-- A value is written exactly if it can be. -/
theorem text_isOk (lenient : Bool) (depth : Nat) (v : Value) :
    (text lenient depth v).isOk = isWritable lenient v := by
  cases v with
  | list items | tuple items =>
      rw [text, isOk_map, isWritable, itemTexts_isOk]
  | object entries => rw [text, isOk_map, isWritable, entryTexts_isOk]
  | _ => cases lenient <;> rfl
  termination_by structural v

theorem itemTexts_isOk (lenient : Bool) (depth : Nat) (items : List Value) :
    (itemTexts lenient depth items).isOk = allWritable lenient items := by
  cases items with
  | nil => rfl
  | cons v rest =>
      rw [itemTexts, allWritable, ← text_isOk lenient depth v, ← itemTexts_isOk lenient depth rest]
      exact isOk_bind_map _ _ _
  termination_by structural items

theorem entryTexts_isOk (lenient : Bool) (depth : Nat) (entries : List (Value × Value)) :
    (entryTexts lenient depth entries).isOk = entriesWritable lenient entries := by
  match entries with
  | [] => rfl
  | (k, v) :: rest =>
      rw [entryTexts, entriesWritable, ← keyText_isOk, ← text_isOk lenient depth v,
        ← entryTexts_isOk lenient depth rest]
      cases keyText k with
      | error f => rfl
      | ok key => exact isOk_bind_map _ _ _
  termination_by structural entries

end

/-- There is a JSON text of a value exactly if it can be written. -/
theorem render_isOk (lenient : Bool) (v : Value) :
    (render lenient v).isOk = isWritable lenient v :=
  text_isOk lenient 0 v

end DataContract.Json
