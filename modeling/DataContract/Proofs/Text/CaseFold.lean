/-
# Which characters are a given one up to case

Some letters beyond ASCII share their lower-case form with an ASCII letter, but the first of these
letters is the i. For the code points below it, and a capital of ASCII aside, equality up to case is
that of ASCII: no other character is taken for one of them.
-/

import DataContract.Text.CaseFold
import Mathlib

set_option autoImplicit false

namespace DataContract.Text

/-- The code points of the capitals of ASCII. -/
def IsCapital (code : Nat) : Prop := 0x41 ≤ code ∧ code ≤ 0x5a

/-- A code point that comes before the small i and is no capital. -/
def IsEarly (code : Nat) : Prop := code < 0x69 ∧ ¬ IsCapital code

instance (code : Nat) : Decidable (IsCapital code) :=
  inferInstanceAs (Decidable (0x41 ≤ code ∧ code ≤ 0x5a))

instance (code : Nat) : Decidable (IsEarly code) :=
  inferInstanceAs (Decidable (code < 0x69 ∧ ¬ IsCapital code))

theorem toNat_toLower (c : Char) :
    (IsCapital c.toNat ∧ c.toLower.toNat = c.toNat + 0x20) ∨
      (¬ IsCapital c.toNat ∧ c.toLower.toNat = c.toNat) := by
  have isUpper : c.isUpper = true ↔ IsCapital c.toNat := decide_eq_true_iff
  by_cases capital : c.isUpper
  · obtain ⟨low, high⟩ := isUpper.mp capital
    refine .inl ⟨⟨low, high⟩, ?_⟩
    rw [Char.toLower_eq_of_isUpper capital]
    exact (Char.toNat_ofNat _).trans (if_pos (.inl (by omega)))
  · refine .inr ⟨mt isUpper.mpr capital, ?_⟩
    rw [Char.toLower_eq_of_not_isUpper capital]

/-- A character that comes before the letters is the lower-case form of itself only. -/
theorem toLower_eq_iff {c d : Char} (before : d.toNat < 0x41) : c.toLower = d ↔ c = d := by
  rw [← Char.toNat_inj, ← Char.toNat_inj]
  rcases toNat_toLower c with ⟨⟨low, high⟩, lower⟩ | ⟨-, lower⟩
  · omega
  · rw [lower]

/-! ### The tables -/

/-- The capitals of ASCII apart, the table of lower-case forms begins behind the early code
points. -/
theorem lowerRuns_cases : ∀ run ∈ lowerRuns,
    run = (0x41, 0x5a, 0x1, 0x61) ∨ 0x69 ≤ run.1 ∧ 0x69 ≤ run.2.2.2 := by
  decide +kernel

theorem variantLowers_late : ∀ entry ∈ variantLowers, 0x69 ≤ entry.1 ∧ 0x69 ≤ entry.2 := by
  decide +kernel

variable (code : Nat) {plain : Nat}

theorem lowerCode_eq_iff (early : IsEarly plain) :
    lowerCode code = plain ↔ code = plain ∨ IsCapital code ∧ code + 0x20 = plain := by
  obtain ⟨less, small⟩ := early
  rw [lowerCode]
  split
  next first last step lower found =>
    have within := List.find?_some found
    simp only [Bool.and_eq_true, decide_eq_true_eq] at within
    rcases lowerRuns_cases _ (List.mem_of_find?_eq_some found) with head | late
    · cases head
      have other : code ≠ plain := fun same => small (same ▸ within.1)
      simp only [other, IsCapital, false_or]
      omega
    · simp only [IsCapital]
      dsimp only at late
      omega
  next none =>
    have noCapital : ¬ IsCapital code := fun ⟨low, high⟩ =>
      List.find?_eq_none.mp none (0x41, 0x5a, 0x1, 0x61) (by decide)
        (by simp [low, high, Nat.mod_one])
    simp [noCapital]

theorem variantCode_eq_iff (early : IsEarly plain) : variantCode code = plain ↔ code = plain := by
  have less := early.1
  rw [variantCode]
  split
  next variant smallest found =>
    have same := List.find?_some found
    have late := variantLowers_late _ (List.mem_of_find?_eq_some found)
    simp only [beq_iff_eq] at same
    omega
  next => exact Iff.rfl

/-! ### Early code points up to case -/

/-- An early code point is equal up to case to itself and to its capital, and to no other. -/
theorem mem_caseVariants_iff (early : IsEarly plain) :
    plain ∈ caseVariants code ↔ code = plain ∨ IsCapital code ∧ code + 0x20 = plain := by
  have less := early.1
  rw [← lowerCode_eq_iff code early, ← variantCode_eq_iff (lowerCode code) early, caseVariants]
  constructor
  · intro mem
    rcases List.mem_append.mp mem with lower | upper
    · rcases List.mem_cons.mp lower with same | variant
      · exact same.symm
      · obtain ⟨entry, inside, own⟩ := List.mem_map.mp variant
        have late := variantLowers_late entry (List.mem_filter.mp inside).1
        omega
    · -- An upper-case form is a capital of ASCII, or it comes after the early code points.
      obtain ⟨lower, -, run⟩ := List.mem_flatMap.mp upper
      obtain ⟨⟨first, last, step, firstLower⟩, inside, made⟩ := List.mem_filterMap.mp run
      simp only [Option.ite_none_right_eq_some, Bool.and_eq_true, decide_eq_true_eq,
        Option.some.injEq] at made
      rcases lowerRuns_cases _ inside with head | late
      · cases head
        exact absurd ⟨by omega, by omega⟩ early.2
      · dsimp only at late
        omega
  · rintro rfl
    exact List.mem_append_left _ List.mem_cons_self

/-- Up to case an early code point is that of the lower-case form which ASCII gives. -/
theorem mem_caseVariants_toLower (c : Char) (early : IsEarly plain) :
    plain ∈ caseVariants c.toNat ↔ c.toLower.toNat = plain := by
  have small := early.2
  rw [mem_caseVariants_iff c.toNat early]
  rcases toNat_toLower c with ⟨capital, lower⟩ | ⟨other, lower⟩
  · have differ : c.toNat ≠ plain := fun same => small (same ▸ capital)
    simp [differ, capital, lower]
  · simp [other, lower]

end DataContract.Text
