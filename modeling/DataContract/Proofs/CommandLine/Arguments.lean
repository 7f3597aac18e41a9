/-
# Words that ask for a validation

The options about the log, the command, the two paths and the options of a validation
are read as what they are, in any number and order within their places, as long as the
paths do not look like options.
-/

import DataContract.CommandLine.Arguments
import Mathlib.Tactic.Common

set_option autoImplicit false

namespace DataContract.CommandLine

theorem classify_plain (options : List String) {word : String}
    (path : word.toList.head? ≠ some '-') : classify options word = .plain word := by
  simp [classify, path]

/-- An option of the program is known to the program. -/
theorem classify_programOption {word : String} (known : word ∈ programOptions) :
    classify (helpOptions ++ programOptions) word = .option word none ∧ word ∉ helpOptions := by
  simp only [programOptions, List.mem_cons, List.not_mem_nil, or_false] at known
  rcases known with rfl | rfl | rfl <;> decide

/-- An option of a validation is known to the command, and a stranger to the program. -/
theorem classify_validateOption {word : String} (known : word ∈ validateOptions) :
    classify (helpOptions ++ validateOptions) word = .option word none ∧
      classify (helpOptions ++ programOptions) word = .stranger ∧ word ∉ helpOptions := by
  simp only [validateOptions, List.mem_cons, List.not_mem_nil, or_false] at known
  rcases known with rfl | rfl | rfl | rfl <;> decide

/-- Without a separator every word is looked at alone. -/
theorem classifyAll_eq_map (options : List String) {words : List String}
    (none : ∀ w ∈ words, w ≠ "--") : classifyAll options words = words.map (classify options) := by
  induction words with
  | nil => rfl
  | cons word rest ih =>
      have differs : (word == "--") = false := by simpa using none word List.mem_cons_self
      rw [classifyAll, differs, if_neg Bool.false_ne_true,
        ih fun w mem => none w (List.mem_cons_of_mem word mem)]
      rfl

theorem ne_separator_of_path {word : String} (path : word.toList.head? ≠ some '-') :
    word ≠ "--" := by
  intro same
  subst same
  exact path rfl

theorem ne_separator_of_option {word : String}
    (known : word ∈ programOptions ∨ word ∈ validateOptions) : word ≠ "--" := by
  intro same
  subst same
  revert known
  decide

/-- Options that are known are taken one after the other. -/
theorem takeWords_options (wanted : Nat) {names : List String}
    (known : ∀ name ∈ names, name ∉ helpOptions) (t : Taken) :
    ∃ taken, takeWords wanted (names.map (.option · none)) t = .ok taken ∧
      taken.options = names.reverse ++ t.options ∧ taken.operands = t.operands ∧
      taken.strangers = t.strangers := by
  induction names generalizing t with
  | nil => exact ⟨t, rfl, rfl, rfl, rfl⟩
  | cons name rest ih =>
      have accepted : takeOption t.options name none = .ok (name :: t.options) := by
        simp [takeOption, known name List.mem_cons_self]
      obtain ⟨taken, read, options, operands, strangers⟩ :=
        ih (fun w mem => known w (List.mem_cons_of_mem name mem))
          { t with options := name :: t.options, afterOperand := false }
      refine ⟨taken, ?_, ?_, operands, strangers⟩
      · rw [List.map_cons, takeWords, accepted]
        exact read
      · rw [options, List.reverse_cons, List.append_assoc]
        rfl

variable {schema data : String} {flags verbosity : List String}

/-- A validation is read with its paths and its options. -/
theorem readNamed_validate (schemaPath : schema.toList.head? ≠ some '-')
    (dataPath : data.toList.head? ≠ some '-') (known : ∀ w ∈ flags, w ∈ validateOptions) :
    readNamed "validate" (schema :: data :: flags) =
      .ok (.validate schema data (flags.contains "--non-strict") (flags.contains "--include-all")
        (flags.contains "--order-body") (flags.contains "--grouped"), false) := by
  have words : classifyAll (helpOptions ++ validateOptions) (schema :: data :: flags) =
      .plain schema :: .plain data :: flags.map (.option · none) := by
    rw [classifyAll_eq_map, List.map_cons, List.map_cons, classify_plain _ schemaPath,
      classify_plain _ dataPath]
    · congr 2
      exact List.map_congr_left fun w mem => (classify_validateOption (known w mem)).1
    · intro w mem
      rcases List.mem_cons.mp mem with rfl | mem
      · exact ne_separator_of_path schemaPath
      · rcases List.mem_cons.mp mem with rfl | mem
        · exact ne_separator_of_path dataPath
        · exact ne_separator_of_option (.inr (known w mem))
  obtain ⟨taken, read, options, operands, strangers⟩ :=
    takeWords_options 2 (fun w mem => (classify_validateOption (known w mem)).2.2)
      ⟨[], [data, schema], true, false⟩
  have command : readCommand validateOptions 2 (schema :: data :: flags) = .ok taken := by
    simp [readCommand, words, takeWords, read, operands, bind, Except.bind, pure, Except.pure]
  simp [readNamed, command, operands, strangers, options, bind, Except.bind, pure, Except.pure]

/-- Options in front of the command are taken one after the other. -/
theorem readProgram_validate (knownFirst : ∀ w ∈ verbosity, w ∈ programOptions)
    (schemaPath : schema.toList.head? ≠ some '-') (dataPath : data.toList.head? ≠ some '-')
    (known : ∀ w ∈ flags, w ∈ validateOptions) (given : List String) :
    readProgram (verbosity ++ "validate" :: schema :: data :: flags) given false =
      .ok ⟨⟨(verbosity ++ given).contains "--verbose",
          (verbosity ++ given).contains "--warnings-only",
          (verbosity ++ given).contains "--errors-only"⟩,
        .validate schema data (flags.contains "--non-strict") (flags.contains "--include-all")
          (flags.contains "--order-body") (flags.contains "--grouped")⟩ := by
  induction verbosity generalizing given with
  | nil =>
      have command : classify (helpOptions ++ programOptions) "validate" = .plain "validate" := by
        decide
      simp [readProgram, command, readNamed_validate schemaPath dataPath known]
  | cons word rest ih =>
      obtain ⟨option, noHelp⟩ := classify_programOption (knownFirst word List.mem_cons_self)
      have accepted : takeOption given word none = .ok (word :: given) := by
        simp [takeOption, noHelp]
      rw [List.cons_append, readProgram, option]
      dsimp only
      rw [accepted]
      dsimp only
      rw [ih fun w mem => knownFirst w (List.mem_cons_of_mem word mem)]
      simp [or_left_comm]

/-- The words of a validation are read as what they say. -/
theorem readArguments_validate (knownFirst : ∀ w ∈ verbosity, w ∈ programOptions)
    (schemaPath : schema.toList.head? ≠ some '-') (dataPath : data.toList.head? ≠ some '-')
    (known : ∀ w ∈ flags, w ∈ validateOptions) :
    readArguments (verbosity ++ "validate" :: schema :: data :: flags) =
      .ok ⟨⟨verbosity.contains "--verbose", verbosity.contains "--warnings-only",
          verbosity.contains "--errors-only"⟩,
        .validate schema data (flags.contains "--non-strict") (flags.contains "--include-all")
          (flags.contains "--order-body") (flags.contains "--grouped")⟩ := by
  have clear : (classifyAll (helpOptions ++ programOptions)
      (verbosity ++ "validate" :: schema :: data :: flags)).contains .ambiguous = false := by
    have each : ∀ w ∈ verbosity ++ "validate" :: schema :: data :: flags,
        w ≠ "--" ∧ classify (helpOptions ++ programOptions) w ≠ .ambiguous := by
      simp only [List.forall_mem_append, List.forall_mem_cons]
      refine ⟨fun w mem => ?_, by decide, ?_, ?_, fun w mem => ?_⟩
      · exact ⟨ne_separator_of_option (.inl (knownFirst w mem)),
          by simp [(classify_programOption (knownFirst w mem)).1]⟩
      · exact ⟨ne_separator_of_path schemaPath, by simp [classify_plain _ schemaPath]⟩
      · exact ⟨ne_separator_of_path dataPath, by simp [classify_plain _ dataPath]⟩
      · exact ⟨ne_separator_of_option (.inr (known w mem)),
          by simp [(classify_validateOption (known w mem)).2.1]⟩
    rw [classifyAll_eq_map _ fun w mem => (each w mem).1]
    simp only [List.contains_eq_mem, decide_eq_false_iff_not, List.mem_map, not_exists, not_and]
    exact fun w mem => (each w mem).2
  rw [readArguments, clear, if_neg Bool.false_ne_true,
    readProgram_validate knownFirst schemaPath dataPath known, List.append_nil]

end DataContract.CommandLine
