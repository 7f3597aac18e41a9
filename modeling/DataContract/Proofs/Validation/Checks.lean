/-
# What the checks of single values find

Each check of a value without parts finds nothing exactly if the value is what the rule
asks for. The only failure is that of reading a date whose numbers are out of range.
-/

import DataContract.Proofs.Validation.Conformity

set_option autoImplicit false

namespace DataContract

theorem failureIf_eq_nil_iff (condition : Bool) (message : String) :
    failureIf condition message = [] ↔ condition = false := by
  cases condition <;> simp [failureIf]

theorem belowMin_eq_false_iff (min : Option Number) (n : Number) :
    belowMin min n = false ↔ ∀ bound, min = some bound → n.lt bound = false := by
  cases min <;> simp [belowMin]

theorem aboveMax_eq_false_iff (max : Option Number) (n : Number) :
    aboveMax max n = false ↔ ∀ bound, max = some bound → bound.lt n = false := by
  cases max <;> simp [aboveMax]

/-- Reading a value as a date fails only because numbers are out of range. -/
theorem Value.isDate_error {v : Value} {f : Fault} (failed : v.isDate = .error f) :
    f = .dateOutOfRange := by
  cases v with
  | text s =>
      simp only [Value.isDate, isDateText] at failed
      split at failed
      · cases failed
      · split at failed
        · cases failed
        · split at failed <;> cases failed
          rfl
  | _ => cases failed

theorem Scalar.fits_error {kind : Scalar} {v : Value} {f : Fault}
    (failed : kind.fits v = .error f) : f = .dateOutOfRange := by
  cases kind with
  | date => exact Value.isDate_error failed
  | _ => cases v <;> cases failed

namespace Rule

variable (r : Rule) (key : Value)

theorem textFailures_eq_nil_iff (s : String) : r.textFailures key s = [] ↔ r.AcceptsText s := by
  have choices : (r.choices.any fun choices => !choices.any (·.equal (.text s))) = false ↔
      ∀ choices, r.choices = some choices → ∃ c ∈ choices, c.equal (.text s) = true := by
    cases r.choices <;> simp
  have pattern : (r.pattern.any fun p => !p.foundIn s) = false ↔
      ∀ p, r.pattern = some p → p.foundIn s = true := by
    cases r.pattern <;> simp
  simp only [textFailures, List.append_eq_nil_iff, failureIf_eq_nil_iff, choices, pattern,
    belowMin_eq_false_iff, aboveMax_eq_false_iff, AcceptsText, WithinBounds, and_assoc]

theorem numberFailures_eq_nil_iff (n : Number) :
    r.numberFailures key n = [] ↔ WithinBounds r.min r.max n := by
  simp only [numberFailures, List.append_eq_nil_iff, failureIf_eq_nil_iff,
    belowMin_eq_false_iff, aboveMax_eq_false_iff, WithinBounds]

theorem lengthFailures_eq_nil_iff (count : Nat) :
    r.lengthFailures key count = [] ↔ WithinBounds r.min r.max (.int count) := by
  simp only [lengthFailures, List.append_eq_nil_iff, failureIf_eq_nil_iff,
    belowMin_eq_false_iff, aboveMax_eq_false_iff, WithinBounds]

/-- A check that reports one message if a value does not fit finds nothing exactly if it
fits. -/
theorem map_failureIf_eq_nil_iff (fits : Except Fault Bool) (message : String) :
    (fits.map fun ok => failureIf (!ok) message) = .ok [] ↔ fits = .ok true := by
  cases fits with
  | error f => simp [Except.map]
  | ok b => simp [Except.map, failureIf_eq_nil_iff]

/-- In no text is a pattern for byte strings found. -/
theorem not_acceptsText_of_bytesPattern (ofBytes : r.hasBytesPattern = true) (s : String) :
    ¬ r.AcceptsText s := by
  rw [hasBytesPattern, Option.any_eq_true] at ofBytes
  obtain ⟨p, own, isBytes⟩ := ofBytes
  intro accepts
  have found := accepts.2.1 p own
  rw [Pattern.foundIn, isBytes] at found
  cases found

/-- The check of a scalar kind finds nothing exactly if the value conforms. -/
theorem scalarFailures_eq_nil_iff (kind : Scalar) (v : Value) :
    r.scalarFailures key kind v = .ok [] ↔ kind.Conforms r v := by
  cases kind with
  | text =>
      cases v with
      | text s =>
          cases ofBytes : r.hasBytesPattern with
          | true =>
              simp [scalarFailures, Scalar.Conforms, ofBytes,
                not_acceptsText_of_bytesPattern r ofBytes]
          | false =>
              simp [scalarFailures, Scalar.Conforms, ofBytes, textFailures_eq_nil_iff]
      | _ => simp [scalarFailures, Scalar.Conforms]
  | number =>
      cases number : v.number? with
      | some n => simp [scalarFailures, Scalar.Conforms, number, numberFailures_eq_nil_iff]
      | none => simp [scalarFailures, Scalar.Conforms, number]
  | _ => simp only [scalarFailures, Scalar.Conforms, map_failureIf_eq_nil_iff]

/-- A check of a scalar kind fails at a date that is out of range, or at a pattern for byte
strings. -/
theorem scalarFailures_error {kind : Scalar} {v : Value} {f : Fault}
    (failed : r.scalarFailures key kind v = .error f) :
    f = .dateOutOfRange ∨ kind = .text ∧ r.hasBytesPattern = true ∧ f = .patternOfBytes := by
  cases kind with
  | text =>
      cases v with
      | text s =>
          rw [scalarFailures] at failed
          split at failed
          next ofBytes =>
            cases failed
            exact .inr ⟨rfl, ofBytes, rfl⟩
          · cases failed
      | _ => cases failed
  | number =>
      simp only [scalarFailures] at failed
      split at failed <;> cases failed
  | _ =>
      simp only [scalarFailures] at failed
      cases fits : Scalar.fits _ v with
      | error g =>
          rw [fits] at failed
          cases failed
          exact .inl (Scalar.fits_error fits)
      | ok b =>
          rw [fits] at failed
          cases failed

end Rule

end DataContract
