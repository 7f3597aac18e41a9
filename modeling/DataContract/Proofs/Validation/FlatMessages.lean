/-
# Flat messages

The messages of a violation are taken out of it once, so it takes folding to keep them
flat: a folded message has texts for parts, never folded messages again, and it has at
least one part. The first is so because folding prefixes texts, the second because a
record is folded only if there is a violation in it, which has a message in its turn.
Then a run has found something exactly if it has something to say.
-/

import DataContract.Proofs.Validation.Folding

set_option autoImplicit false

namespace DataContract

open Declaration (map_eq_ok bind_eq_ok)

/-- A text, or some texts, at least one. -/
def Message.Flat : Message → Prop
  | .text _ => True
  | .folded parts => parts ≠ [] ∧ ∀ p ∈ parts, p.isText = true

namespace Message

theorem flat_texts (found : List String) : ∀ m ∈ found.map Message.text, m.Flat := by
  intro m mem
  obtain ⟨s, -, rfl⟩ := List.mem_map.mp mem
  trivial

theorem Flat.spoken {m : Message} (flat : m.Flat) : m.Spoken := by
  cases m with
  | text s => trivial
  | folded parts => exact flat.2

end Message

theorem Violation.messages_ne_nil {x : Violation} (flat : x.message.Flat) : x.messages ≠ [] := by
  obtain ⟨key, m⟩ := x
  cases m with
  | text s => exact List.cons_ne_nil _ _
  | folded parts => exact flat.1

/-- Flat violations say something exactly if there are any. -/
theorem flattenMessages_eq_nil_iff {violations : List Violation}
    (flat : ∀ x ∈ violations, x.message.Flat) :
    flattenMessages violations = [] ↔ violations = [] := by
  rw [flattenMessages, List.flatMap_eq_nil_iff]
  constructor
  · intro silent
    rw [List.eq_nil_iff_forall_not_mem]
    exact fun x mem => Violation.messages_ne_nil (flat x mem) (silent x mem)
  · rintro rfl
    simp

/-- The messages of flat violations are texts. -/
theorem exists_texts_of_flat {violations : List Violation}
    (flat : ∀ x ∈ violations, x.message.Flat) :
    ∃ texts : List String, flattenMessages violations = texts.map .text :=
  exists_texts_of_isText (isText_of_mem_flattenMessages fun x mem => (flat x mem).spoken)

/-- Folding flat violations, if there are any, makes a flat message. -/
theorem foldMessages_flat {key : Value} {violations : List Violation} {m : Message}
    (flat : ∀ x ∈ violations, x.message.Flat) (some : violations ≠ [])
    (folded : foldMessages key (flattenMessages violations) = .ok m) : m.Flat := by
  obtain ⟨texts, own⟩ := exists_texts_of_flat flat
  have said : texts ≠ [] := by
    rintro rfl
    exact some ((flattenMessages_eq_nil_iff flat).mp own)
  rw [own, foldMessages_texts] at folded
  cases folded
  refine ⟨by simpa using said, fun p mem => ?_⟩
  obtain ⟨s, -, rfl⟩ := List.mem_map.mp mem
  rfl

variable [UserCode]

/-- The messages of a check are flat if what a run finds in a nested record is: folding is done
once per level, of what is flat already. -/
theorem TypeSpec.check_flat_of_nested {t : TypeSpec}
    (inner : ∀ s, t = .nested s → ∀ v st found, (s.walk v st).result = .ok found →
      ∀ x ∈ found, x.message.Flat)
    {r : Rule} {key v : Value} {st : Store} {messages : List Message}
    (checked : (t.check r key v st).result = .ok messages) : ∀ m ∈ messages, m.Flat := by
  cases t with
  | scalar kind =>
      obtain ⟨found, -, rfl⟩ := map_eq_ok.mp checked
      exact Message.flat_texts found
  | nested s =>
      rw [check] at checked
      split at checked
      · cases checked
        exact Message.flat_texts [_]
      · obtain ⟨violations, walked, folded⟩ := bind_eq_ok.mp checked
        split at folded
        · cases folded
          exact Message.flat_texts []
        next any =>
          obtain ⟨m, own, rfl⟩ := map_eq_ok.mp folded
          have some : violations ≠ [] := by simpa using any
          exact List.forall_mem_singleton.mpr
            (foldMessages_flat (inner s rfl _ _ _ walked) some own)
  | array item =>
      cases item with
      | none =>
          rw [check] at checked
          split at checked <;> cases checked
          · exact Message.flat_texts [_]
          · exact Message.flat_texts _
      | some item =>
          rw [check] at checked
          split at checked
          · cases checked
            exact Message.flat_texts [_]
          · obtain ⟨all, -, rfl⟩ := map_eq_ok.mp checked
            refine List.forall_mem_append.mpr ⟨Message.flat_texts _, ?_⟩
            cases all with
            | true => exact Message.flat_texts []
            | false => exact Message.flat_texts [_]

/-- What a run finds is flat, however deep records nest. -/
theorem Schema.walk_flat {s : Schema} (worded : s.Throughout Schema.Worded) {v : Value}
    {st : Store} {found : List Violation} (walked : (s.walk v st).result = .ok found) :
    ∀ x ∈ found, x.message.Flat := by
  refine (Schema.induction (S := fun s => s.Throughout Schema.Worded → ∀ v st found,
      (s.walk v st).result = .ok found → ∀ x ∈ found, x.message.Flat)
    (T := fun t => t.Throughout Schema.Worded → ∀ s, t = .nested s → ∀ v st found,
      (s.walk v st).result = .ok found → ∀ x ∈ found, x.message.Flat)
    ⟨?schema, ?scalar, ?nested, ?untyped, ?array⟩).1 s worded v st found walked
  case schema =>
    intro s below worded v st found walked
    rw [Schema.throughout_iff] at worded
    exact Schema.walk_satisfies (fun _ => trivial) worded.1
      (fun r mem _ _ _ => TypeSpec.check_flat_of_nested (below r mem (worded.2 r mem))) walked
  case scalar =>
    intro kind _ s same
    cases same
  case nested =>
    intro s inner worded s' same
    cases same
    exact inner worded
  case untyped =>
    intro _ s same
    cases same
  case array =>
    intro item _ _ s same
    cases same

end DataContract
