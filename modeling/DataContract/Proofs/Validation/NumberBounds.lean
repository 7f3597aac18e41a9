/-
# The bounds of numbers

A number is checked by asking whether it lies below the lower bound or above the upper
one. It lies inside its bounds if each bound that is set is at most, or at least, the
number. For numbers and bounds that all have a point on the extended real line the two
say the same. A bound that cannot be compared with the number excludes nothing, though
nothing lies inside it: what passes the check without lying inside its bounds is
exactly the undefined number, against any bound, and any number against the undefined
bound, as far as the other bound lets it pass.
-/

import DataContract.Proofs.Number.Order
import DataContract.Proofs.Validation.Checks

set_option autoImplicit false

namespace DataContract

/-- A number is at least the lower bound and at most the upper one, where they are set. -/
def InsideBounds (min max : Option Number) (n : Number) : Prop :=
  (∀ bound, min = some bound → bound.AtMost n) ∧ ∀ bound, max = some bound → n.AtMost bound

/-- A number is inside those bounds with which it can be compared. -/
def InsideComparableBounds (min max : Option Number) (n : Number) : Prop :=
  (∀ bound, min = some bound → n.Comparable bound → bound.AtMost n) ∧
    ∀ bound, max = some bound → n.Comparable bound → n.AtMost bound

/-- A bound is set with which the number cannot be compared. -/
def HasIncomparableBound (min max : Option Number) (n : Number) : Prop :=
  ∃ bound, (min = some bound ∨ max = some bound) ∧ ¬n.Comparable bound

/-- The bounds that the check goes by are those with which the number can be compared. -/
theorem withinBounds_iff_insideComparableBounds (min max : Option Number) (n : Number) :
    WithinBounds min max n ↔ InsideComparableBounds min max n := by
  simp only [WithinBounds, InsideComparableBounds, Number.lt_eq_false_iff]
  have turned (bound : Number) : bound.Comparable n ↔ n.Comparable bound :=
    ⟨Number.Comparable.symm, Number.Comparable.symm⟩
  simp only [turned]

/-- Inside all bounds is inside the comparable ones, with every bound comparable. -/
theorem insideBounds_iff (min max : Option Number) (n : Number) :
    InsideBounds min max n ↔
      InsideComparableBounds min max n ∧ ¬HasIncomparableBound min max n := by
  constructor
  · rintro ⟨lower, upper⟩
    refine ⟨⟨fun bound set _ => lower bound set, fun bound set _ => upper bound set⟩, ?_⟩
    rintro ⟨bound, isMin | isMax, apart⟩
    · exact apart (lower bound isMin).comparable.symm
    · exact apart (upper bound isMax).comparable
  · rintro ⟨⟨lower, upper⟩, allComparable⟩
    have comparable (bound : Number) (set : min = some bound ∨ max = some bound) :
        n.Comparable bound := by
      by_contra apart
      exact allComparable ⟨bound, set, apart⟩
    exact ⟨fun bound set => lower bound set (comparable bound (.inl set)),
      fun bound set => upper bound set (comparable bound (.inr set))⟩

/-- The check of a number finds nothing exactly if the number is inside the bounds with
which it can be compared. This is to be inside all its bounds, except for numbers with
a bound that cannot be compared with them, which pass as the other bound lets them. -/
theorem Rule.scalarFailures_number_iff (r : Rule) (key v : Value) (n : Number)
    (number : v.number? = some n) :
    (r.scalarFailures key .number v = .ok [] ↔ InsideComparableBounds r.min r.max n) ∧
      ((r.scalarFailures key .number v = .ok [] ↔ InsideBounds r.min r.max n) ↔
        ¬(HasIncomparableBound r.min r.max n ∧ InsideComparableBounds r.min r.max n)) := by
  have found : r.scalarFailures key .number v = .ok [] ↔
      InsideComparableBounds r.min r.max n := by
    rw [← withinBounds_iff_insideComparableBounds, ← numberFailures_eq_nil_iff r key n]
    simp [scalarFailures, number]
  refine ⟨found, ?_⟩
  rw [found, insideBounds_iff]
  tauto

/-- The rule of an age that is not negative. -/
def ageRule : Rule :=
  { Rule.ofType (.text "age") (.scalar .number) with min := some (.int 0) }

theorem hasIncomparableBound_nan : HasIncomparableBound ageRule.min ageRule.max (.float .nan) :=
  ⟨.int 0, .inl rfl, fun comparable => nomatch comparable.1⟩

theorem insideComparableBounds_nan :
    InsideComparableBounds ageRule.min ageRule.max (.float .nan) :=
  ⟨fun _ _ ⟨isPoint, _⟩ => (nomatch isPoint), fun _ noBound => nomatch noBound⟩

/-- The check of the undefined age finds nothing, and not because it is inside. -/
theorem scalarFailures_number_iff_nan :
    (Value.float .nan).number? = some (.float .nan) ∧
      ageRule.scalarFailures (.text "age") .number (.float .nan) = .ok [] ∧
      ¬(ageRule.scalarFailures (.text "age") .number (.float .nan) = .ok [] ↔
        InsideBounds ageRule.min ageRule.max (.float .nan)) := by
  have spec := Rule.scalarFailures_number_iff ageRule (.text "age") (.float .nan)
    (.float .nan) rfl
  refine ⟨rfl, spec.1.mpr insideComparableBounds_nan, ?_⟩
  rw [spec.2, not_not]
  exact ⟨hasIncomparableBound_nan, insideComparableBounds_nan⟩

/-- The undefined number passes a lower bound that it is not above. -/
theorem undefined_number_admitted :
    ¬∀ (r : Rule) (key v : Value) (n : Number), v.number? = some n →
      (r.scalarFailures key .number v = .ok [] ↔ InsideBounds r.min r.max n) := by
  intro admitsInside
  have passes : ageRule.scalarFailures (.text "age") .number (.float .nan) = .ok [] := rfl
  obtain ⟨lower, -⟩ :=
    (admitsInside ageRule (.text "age") (.float .nan) (.float .nan) rfl).mp passes
  obtain ⟨x, y, -, nowhere, -⟩ := lower (.int 0) rfl
  cases nowhere

end DataContract
