/-
# How a validation by the program ends

The promise of the program is kept but for its exceptions, and these are all of them, whatever the
host is. What interrupts a run ends it with a failure instead of an exit code.
-/

import DataContract.Proofs.CommandLine.Arguments
import DataContract.Proofs.CommandLine.Promise

set_option autoImplicit false

namespace DataContract.CommandLine

open WithoutUserCode

/-! ## Reporting -/

theorem isOk_eq_false_iff {ε α : Type} (x : Except ε α) : x.isOk = false ↔ ∃ e, x = .error e := by
  cases x <;> simp [Except.isOk, Except.toBool]

/-- A run that cannot write its lines fails. -/
theorem conclude_of_error (host : Host) (code : Nat) (records : List Record) (f : Json.Fault) :
    (conclude host code records (.error f)).ending = .escape (.output f) :=
  rfl

theorem conclude_of_refused {host : Host} {lines : List String}
    (refused : lines.all host.takes = false) (code : Nat) (records : List Record) :
    (conclude host code records (.ok lines)).ending = .escape .console := by
  rw [conclude, refused]
  rfl

theorem conclude_of_taken {host : Host} {lines : List String}
    (taken : lines.all host.takes = true) (code : Nat) (records : List Record) :
    conclude host code records (.ok lines) = ⟨.exit code, linesText lines, records⟩ := by
  rw [conclude, if_pos taken]

/-- One line with what is written for a value. -/
theorem linesText_singleton (line : String) : linesText [line] = line ++ "\n" := by
  rw [linesText, List.map_singleton, ← String.toList_inj]
  simp

/-- What is written for a value is a line with a JSON document exactly if its numbers are
finite. -/
theorem documentPrinted_iff {lenient : Bool} {v : Value} {lines : List String}
    (written : (Json.render lenient v).map ([·]) = .ok lines) :
    DocumentPrinted lenient v (linesText lines) ↔ Json.allFinite v = true := by
  cases rendered : Json.render lenient v with
  | error f =>
      rw [rendered] at written
      cases written
  | ok line =>
      rw [rendered] at written
      cases written
      rw [← Json.render_mem_documents_iff rendered, linesText_singleton]
      constructor
      · intro printed
        obtain ⟨document, own, same⟩ := printed
        have line : line = String.ofList document := by simpa using same
        rwa [line, String.toList_ofList]
      · exact fun own => ⟨line.toList, own, by rw [String.ofList_toList]⟩

section Reporting

variable {host : Host} {s : Schema} {o : ValidateOptions} {v : Value} {st : Store}
  (dataName schemaName : String)

/-- A validation that reports invalid data. -/
theorem validateLoaded_of_invalid {report : Report}
    (reported : (s.validate v st).result = .ok report) (invalid : report.valid = false) :
    ∃ records, validateLoaded host s o dataName schemaName v st = conclude host 2 records
      (violationLines o.grouped (s.validate v st).store report.violations) := by
  rw [validateLoaded]
  dsimp only
  simp only [reported, invalid]
  exact ⟨_, rfl⟩

/-- A validation that reports valid data. -/
theorem validateLoaded_of_valid {report : Report} (reported : (s.validate v st).result = .ok report)
    (valid : report.valid = true) :
    ∃ records, validateLoaded host s o dataName schemaName v st =
      conclude host 0 records (bodyLines s o (s.validate v st).store report.data) := by
  rw [validateLoaded]
  dsimp only
  simp only [reported, valid]
  exact ⟨_, rfl⟩

/-- What cannot be written as JSON is not. -/
theorem exists_unwritten {lenient : Bool} {value : Value}
    (unwritable : Json.isWritable lenient value = false) :
    ∃ f, (Json.render lenient value).map ([·]) = .error f := by
  rw [← Json.render_isOk, isOk_eq_false_iff] at unwritable
  obtain ⟨f, failed⟩ := unwritable
  exact ⟨f, by rw [failed]; rfl⟩

theorem exists_written {lenient : Bool} {value : Value}
    (writable : ¬ Json.isWritable lenient value = false) :
    ∃ lines, (Json.render lenient value).map ([·]) = .ok lines := by
  rw [Bool.not_eq_false, ← Json.render_isOk] at writable
  cases rendered : Json.render lenient value with
  | error f =>
      rw [rendered] at writable
      cases writable
  | ok line => exact ⟨[line], rfl⟩

/-- A validation that cannot be reported ends with a failure. -/
theorem validateLoaded_of_unreportable (unreportable : Unreportable host s o v st) :
    ∃ x, (validateLoaded host s o dataName schemaName v st).ending = .escape x := by
  cases unreportable with
  | fault failed =>
      rw [validateLoaded]
      dsimp only
      rw [failed]
      exact ⟨_, rfl⟩
  | violations reported invalid grouped unwritable =>
      obtain ⟨records, own⟩ := validateLoaded_of_invalid dataName schemaName reported invalid
      obtain ⟨f, failed⟩ := exists_unwritten unwritable
      rw [own, grouped, violationLines, if_pos rfl]
      exact ⟨_, congrArg (fun lines => (conclude host 2 records lines).ending) failed⟩
  | body reported valid unwritable =>
      obtain ⟨records, own⟩ := validateLoaded_of_valid dataName schemaName reported valid
      obtain ⟨f, failed⟩ := exists_unwritten unwritable
      rw [own, bodyLines, failed]
      exact ⟨_, conclude_of_error host 0 records f⟩
  | violationLine reported invalid written refused =>
      obtain ⟨records, own⟩ := validateLoaded_of_invalid dataName schemaName reported invalid
      rw [own, written]
      exact ⟨_, conclude_of_refused refused 2 records⟩
  | bodyLine reported valid written refused =>
      obtain ⟨records, own⟩ := validateLoaded_of_valid dataName schemaName reported valid
      rw [own, written]
      exact ⟨_, conclude_of_refused refused 0 records⟩

/-- Any other validation prints what it finds. -/
theorem validateLoaded_of_reportable (reportable : ¬ Unreportable host s o v st) :
    ∃ report, (s.validate v st).result = .ok report ∧
      (report.valid = false → ∃ lines,
        violationLines o.grouped (s.validate v st).store report.violations = .ok lines ∧
        (validateLoaded host s o dataName schemaName v st).ending = .exit 2 ∧
        (validateLoaded host s o dataName schemaName v st).output = linesText lines) ∧
      (report.valid = true → ∃ lines,
        bodyLines s o (s.validate v st).store report.data = .ok lines ∧
        (validateLoaded host s o dataName schemaName v st).ending = .exit 0 ∧
        (validateLoaded host s o dataName schemaName v st).output = linesText lines) := by
  cases outcome : (s.validate v st).result with
  | error f => exact absurd (.fault outcome) reportable
  | ok report =>
      refine ⟨report, rfl, fun invalid => ?_, fun valid => ?_⟩
      · obtain ⟨lines, written⟩ : ∃ lines,
            violationLines o.grouped (s.validate v st).store report.violations = .ok lines := by
          cases grouped : o.grouped with
          | false => exact ⟨_, rfl⟩
          | true => exact exists_written fun unwritable =>
              reportable (.violations outcome invalid grouped unwritable)
        have taken : lines.all host.takes = true := by
          rw [← Bool.not_eq_false]
          exact fun refused => reportable (.violationLine outcome invalid written refused)
        obtain ⟨records, own⟩ := validateLoaded_of_invalid dataName schemaName outcome invalid
        rw [own, written, conclude_of_taken taken]
        exact ⟨lines, rfl, rfl, rfl⟩
      · obtain ⟨lines, written⟩ : ∃ lines,
            bodyLines s o (s.validate v st).store report.data = .ok lines :=
          exists_written fun unwritable => reportable (.body outcome valid unwritable)
        have taken : lines.all host.takes = true := by
          rw [← Bool.not_eq_false]
          exact fun refused => reportable (.bodyLine outcome valid written refused)
        obtain ⟨records, own⟩ := validateLoaded_of_valid dataName schemaName outcome valid
        rw [own, written, conclude_of_taken taken]
        exact ⟨lines, rfl, rfl, rfl⟩

/-- The lines of violations are what is promised, unless JSON does not know a number in them. -/
theorem violationsPrinted_iff {violations : List Violation} {lines : List String}
    (written : violationLines o.grouped st violations = .ok lines) :
    ViolationsPrinted o st violations (linesText lines) ↔
      (o.grouped = true → Json.allFinite (violationsValue st violations) = true) := by
  rw [ViolationsPrinted]
  cases grouped : o.grouped with
  | true =>
      rw [grouped] at written
      have document : (Json.render false (violationsValue st violations)).map ([·]) = .ok lines :=
        written
      rw [if_pos rfl, documentPrinted_iff document]
      simp
  | false =>
      rw [grouped] at written
      cases written
      rw [if_neg Bool.false_ne_true, linesText, List.map_map]
      exact iff_of_true rfl nofun

/-- What is not JSON about a report is in its violations, or in its body. -/
theorem unlimited_iff {report : Report} (reported : (s.validate v st).result = .ok report) :
    Unlimited s o v st ↔
      (report.valid = false ∧ o.grouped = true ∧
        Json.allFinite (violationsValue (s.validate v st).store report.violations) = false) ∨
      (report.valid = true ∧
        Json.allFinite (bodyOf s o (s.validate v st).store report.data) = false) := by
  constructor
  · intro unlimited
    cases unlimited with
    | violations reported' invalid grouped infinite =>
        cases reported.symm.trans reported'
        exact .inl ⟨invalid, grouped, infinite⟩
    | body reported' valid infinite =>
        cases reported.symm.trans reported'
        exact .inr ⟨valid, infinite⟩
  · intro infinite
    rcases infinite with ⟨invalid, grouped, infinite⟩ | ⟨valid, infinite⟩
    · exact .violations reported invalid grouped infinite
    · exact .body reported valid infinite

end Reporting

/-! ## The whole run -/

section Run

variable {host : Host} {files : String → Option String} {schema data : String}
  {o : ValidateOptions} {t : Transcript}

/-- A run that ends with a failure keeps no promise. -/
theorem Promised.not_escape (promised : Promised host files schema data o t) :
    ¬ ∃ x, t.ending = .escape x := by
  intro escapes
  obtain ⟨x, escaped⟩ := escapes
  obtain ⟨code, -, exits⟩ := promised.exits
  cases escaped.symm.trans exits

/-- A run keeps the promise without an exception, fails, or prints what is no JSON document. -/
inductive Outcome (host : Host) (files : String → Option String) (schema data : String)
    (o : ValidateOptions) (t : Transcript) : Prop
  | kept : ¬ Interrupted host files schema data o → ¬ Misprinted host files schema data o →
      Promised host files schema data o t → Outcome host files schema data o t
  | failed {x : Escape} : Interrupted host files schema data o → t.ending = .escape x →
      Outcome host files schema data o t
  | unkept {code : Nat} : ¬ Interrupted host files schema data o →
      Misprinted host files schema data o → t.ending = .exit code →
      ¬ Promised host files schema data o t → Outcome host files schema data o t

/-- The records of a run are not promised. -/
theorem Outcome.with_records (outcome : Outcome host files schema data o t)
    (records : List Record) : Outcome host files schema data o { t with records } := by
  cases outcome with
  | kept uninterrupted sound promised =>
      exact .kept uninterrupted sound
        ⟨promised.exits, promised.refused, promised.invalid, promised.valid⟩
  | failed interrupted escaped => exact .failed interrupted escaped
  | unkept uninterrupted misprinted ended broken =>
      refine .unkept uninterrupted misprinted ended fun promised => broken ?_
      exact ⟨promised.exits, promised.refused, promised.invalid, promised.valid⟩

/-- The promise is kept where nothing is the matter, and a failure ends just what is interrupted. -/
theorem Outcome.promised_iff (outcome : Outcome host files schema data o t) :
    (Promised host files schema data o t ↔
      ¬ Interrupted host files schema data o ∧ ¬ Misprinted host files schema data o) ∧
    ((∃ x, t.ending = .escape x) ↔ Interrupted host files schema data o) := by
  cases outcome with
  | kept uninterrupted sound promised =>
      exact ⟨iff_of_true promised ⟨uninterrupted, sound⟩,
        iff_of_false promised.not_escape uninterrupted⟩
  | failed interrupted escaped =>
      exact ⟨iff_of_false (fun kept => kept.not_escape ⟨_, escaped⟩)
          (fun sound => sound.1 interrupted), iff_of_true ⟨_, escaped⟩ interrupted⟩
  | unkept uninterrupted misprinted ended broken =>
      refine ⟨iff_of_false broken (fun sound => sound.2 misprinted), iff_of_false ?_ uninterrupted⟩
      intro escapes
      obtain ⟨x, escaped⟩ := escapes
      cases ended.symm.trans escaped

/-- The third exit code is what is promised where no schema is declared, or no data held. -/
theorem outcome_of_refused (ending : t.ending = .exit 3) (output : t.output = "")
    (uninterrupted : ¬ Interrupted host files schema data o)
    (refused : (∀ s, ¬ Declares host files schema o s) ∨ ∀ v st, ¬ Holds host files data v st) :
    Outcome host files schema data o t := by
  have neither {s : Schema} {v : Value} {st : Store} (declares : Declares host files schema o s)
      (holds : Holds host files data v st) : False :=
    refused.elim (fun none => none s declares) (fun none => none v st holds)
  refine .kept uninterrupted ?_ ⟨⟨3, by simp, ending⟩, fun _ => ⟨ending, output⟩, ?_, ?_⟩
  · intro misprinted
    obtain ⟨s, v, st, declares, holds, -⟩ := misprinted
    exact neither declares holds
  · exact fun s v st _ declares holds => (neither declares holds).elim
  · exact fun s v st _ declares holds => (neither declares holds).elim

/-- What is declared and held is not refused. -/
theorem not_refused {s : Schema} {v : Value} {st : Store}
    (declares : Declares host files schema o s) (holds : Holds host files data v st) :
    ¬ (Unloadable host files schema ∨
      (∃ v st, Holds host files schema v st ∧ ¬ WellFormedDocument (st.plain v)) ∨
      Unloadable host files data) := by
  obtain ⟨v', st', own, wellFormed⟩ := (exists_declares_iff host files schema o).mp ⟨s, declares⟩
  intro refused
  rcases refused with unloadable | ⟨w, wst, other, faulty⟩ | unloadable
  · exact own.not_unloadable unloadable
  · obtain ⟨rfl, rfl⟩ := own.unique other
    exact faulty wellFormed
  · exact holds.not_unloadable unloadable

/-- A run that cannot load its schema. -/
theorem outcome_of_schema {e : LoadFault} (loaded : loadSchema host files schema o = .error e) :
    Outcome host files schema data o (refuseFile .schema schema e) := by
  have none (s : Schema) : ¬ Declares host files schema o s := by
    rw [declares_iff_loadSchema, loaded]
    nofun
  have through := letThrough_loadSchema_iff loaded
  by_cases letThrough : LetThrough e
  · obtain ⟨x, escaped⟩ := refuseFile_of_letThrough .schema schema letThrough
    exact .failed ((through.mp letThrough).elim .schemaScalar .schemaForeign) escaped
  · obtain ⟨ending, output⟩ := refuseFile_of_not_letThrough .schema schema letThrough
    refine outcome_of_refused ending output ?_ (.inl none)
    intro interrupted
    cases interrupted with
    | schemaScalar impossible => exact letThrough (through.mpr (.inl impossible))
    | schemaForeign foreign => exact letThrough (through.mpr (.inr foreign))
    | dataScalar declares _ => exact none _ declares
    | run declares _ _ => exact none _ declares

/-- With a schema only its data can interrupt a run. -/
theorem interrupted_iff_of_declares {s : Schema} (declares : Declares host files schema o s) :
    Interrupted host files schema data o ↔
      Impossible host files data ∨
        ∃ v st, Holds host files data v st ∧ Unreportable host s o v st := by
  obtain ⟨v, st, own, entries, declared, -⟩ :=
    (exists_declares_iff host files schema o).mp ⟨s, declares⟩
  constructor
  · intro interrupted
    cases interrupted with
    | schemaScalar impossible => exact absurd impossible own.not_impossible
    | schemaForeign foreign =>
        obtain ⟨e, refused, -⟩ := own.foreign_iff.mp foreign
        cases declared.symm.trans refused
    | dataScalar _ impossible => exact .inl impossible
    | run declares' holds unreportable =>
        obtain rfl := declares.unique declares'
        exact .inr ⟨_, _, holds, unreportable⟩
  · intro faulty
    rcases faulty with impossible | ⟨w, wst, holds, unreportable⟩
    · exact .dataScalar declares impossible
    · exact .run declares holds unreportable

/-- A run that cannot load its data. -/
theorem outcome_of_data {s : Schema} {e : LoadFault} (declares : Declares host files schema o s)
    (found : loadData host.load data (files data) Store.empty = .error e)
    (records : List Record) :
    Outcome host files schema data o (Transcript.after records (refuseFile .data data e)) := by
  obtain ⟨unloadable, through⟩ := loadData_error found
  have none (v : Value) (st : Store) : ¬ Holds host files data v st :=
    fun holds => holds.not_unloadable unloadable
  by_cases letThrough : LetThrough e
  · obtain ⟨x, escaped⟩ := refuseFile_of_letThrough .data data letThrough
    exact .failed (.dataScalar declares (through.mp letThrough)) escaped
  · obtain ⟨ending, output⟩ := refuseFile_of_not_letThrough .data data letThrough
    refine outcome_of_refused ending output ?_ (.inr none)
    rw [interrupted_iff_of_declares declares]
    intro faulty
    rcases faulty with impossible | ⟨v, st, holds, -⟩
    · exact letThrough (through.mpr impossible)
    · exact none v st holds

/-- With a schema that is declared and data that are held, the promise is about their report. -/
theorem promised_iff_of_reported {s : Schema} {v : Value} {st : Store} {report : Report}
    (declares : Declares host files schema o s) (holds : Holds host files data v st)
    (reported : (s.validate v st).result = .ok report) :
    Promised host files schema data o t ↔
      (report.valid = false → t.ending = .exit 2 ∧
        ViolationsPrinted o (s.validate v st).store report.violations t.output) ∧
      (report.valid = true → t.ending = .exit 0 ∧
        DocumentPrinted true (bodyOf s o (s.validate v st).store report.data) t.output) := by
  constructor
  · exact fun promised => ⟨promised.invalid s v st report declares holds reported,
      promised.valid s v st report declares holds reported⟩
  · intro kept
    obtain ⟨invalid, valid⟩ := kept
    refine ⟨?_, fun refused => absurd refused (not_refused declares holds), ?_, ?_⟩
    · cases verdict : report.valid with
      | false => exact ⟨2, by simp, (invalid verdict).1⟩
      | true => exact ⟨0, by simp, (valid verdict).1⟩
    · intro s' w wst report' declares' holds' reported'
      obtain rfl := declares.unique declares'
      obtain ⟨rfl, rfl⟩ := holds.unique holds'
      cases reported.symm.trans reported'
      exact invalid
    · intro s' w wst report' declares' holds' reported'
      obtain rfl := declares.unique declares'
      obtain ⟨rfl, rfl⟩ := holds.unique holds'
      cases reported.symm.trans reported'
      exact valid

/-- With a schema that is declared and data that are held, a misprint is one of their report. -/
theorem misprinted_iff_of_holds {s : Schema} {v : Value} {st : Store}
    (declares : Declares host files schema o s) (holds : Holds host files data v st) :
    Misprinted host files schema data o ↔ Unlimited s o v st := by
  constructor
  · intro misprinted
    obtain ⟨s', w, wst, declares', holds', unlimited⟩ := misprinted
    obtain rfl := declares.unique declares'
    obtain ⟨rfl, rfl⟩ := holds.unique holds'
    exact unlimited
  · exact fun unlimited => ⟨s, v, st, declares, holds, unlimited⟩

/-- A validation that prints what it finds ends with an exit code, and keeps the promise unless
JSON does not know a number in what it prints. -/
theorem promised_iff_of_reportable {s : Schema} {v : Value} {st : Store}
    (declares : Declares host files schema o s) (holds : Holds host files data v st)
    (reportable : ¬ Unreportable host s o v st) (dataName schemaName : String)
    (records : List Record) :
    let t := Transcript.after records (validateLoaded host s o dataName schemaName v st)
    (∃ code, t.ending = .exit code) ∧
      (Promised host files schema data o t ↔ ¬ Unlimited s o v st) := by
  intro t
  obtain ⟨report, reported, invalid, valid⟩ :=
    validateLoaded_of_reportable dataName schemaName reportable
  rw [promised_iff_of_reported declares holds reported, unlimited_iff reported]
  cases verdict : report.valid with
  | false =>
      obtain ⟨lines, written, ending, output⟩ := invalid verdict
      have ended : t.ending = .exit 2 := ending
      have printed : t.output = linesText lines := output
      rw [printed, violationsPrinted_iff written]
      exact ⟨⟨2, ended⟩, by simp [ended]⟩
  | true =>
      obtain ⟨lines, written, ending, output⟩ := valid verdict
      have ended : t.ending = .exit 0 := ending
      have printed : t.output = linesText lines := output
      rw [printed, documentPrinted_iff written]
      exact ⟨⟨0, ended⟩, by simp [ended]⟩

/-- A run that validates. -/
theorem outcome_of_loaded {s : Schema} {v : Value} {st : Store}
    (declares : Declares host files schema o s) (holds : Holds host files data v st)
    (dataName schemaName : String) (records : List Record) :
    Outcome host files schema data o
      (Transcript.after records (validateLoaded host s o dataName schemaName v st)) := by
  by_cases unreportable : Unreportable host s o v st
  · obtain ⟨x, escaped⟩ := validateLoaded_of_unreportable dataName schemaName unreportable
    exact .failed (.run declares holds unreportable) escaped
  · obtain ⟨⟨code, ended⟩, kept⟩ :=
      promised_iff_of_reportable declares holds unreportable dataName schemaName records
    have uninterrupted : ¬ Interrupted host files schema data o := by
      rw [interrupted_iff_of_declares declares]
      intro faulty
      rcases faulty with impossible | ⟨w, wst, holds', other⟩
      · exact holds.not_impossible impossible
      · obtain ⟨rfl, rfl⟩ := holds.unique holds'
        exact unreportable other
    rw [← misprinted_iff_of_holds declares holds] at kept
    by_cases misprinted : Misprinted host files schema data o
    · exact .unkept uninterrupted misprinted ended (mt kept.mp (not_not_intro misprinted))
    · exact .kept uninterrupted misprinted (kept.mpr misprinted)

theorem runValidate_of_schema_error {e : LoadFault}
    (refused : loadSchema host files (resolvePath schema) o = .error e) :
    runValidate host files schema data o = refuseFile .schema (resolvePath schema) e := by
  rw [loadSchema] at refused
  simp only [runValidate, refused]

theorem runValidate_of_data_error {s : Schema} {e : LoadFault}
    (compiled : loadSchema host files (resolvePath schema) o = .ok s)
    (refused : loadData host.load (resolvePath data) (files (resolvePath data)) Store.empty =
      .error e) :
    runValidate host files schema data o =
      Transcript.after [compiledRecord s] (refuseFile .data (resolvePath data) e) := by
  rw [loadSchema] at compiled
  simp only [runValidate, compiled, refused]

theorem runValidate_of_loaded {s : Schema} {v : Value} {st : Store}
    (compiled : loadSchema host files (resolvePath schema) o = .ok s)
    (loaded : loadData host.load (resolvePath data) (files (resolvePath data)) Store.empty =
      .ok (v, st)) :
    runValidate host files schema data o =
      Transcript.after [compiledRecord s]
        (validateLoaded host s o (fileName data) (fileName schema) v st) := by
  rw [loadSchema] at compiled
  simp only [runValidate, compiled, loaded]

/-- Every validation of the program has one of the outcomes. -/
theorem runValidate_outcome (host : Host) (files : String → Option String) (schema data : String)
    (o : ValidateOptions) :
    Outcome host files (resolvePath schema) (resolvePath data) o
      (runValidate host files schema data o) := by
  cases compiled : loadSchema host files (resolvePath schema) o with
  | error e =>
      rw [runValidate_of_schema_error compiled]
      exact outcome_of_schema compiled
  | ok s =>
      have declares := declares_iff_loadSchema.mpr compiled
      cases loaded : loadData host.load (resolvePath data) (files (resolvePath data))
          Store.empty with
      | error e =>
          rw [runValidate_of_data_error compiled loaded]
          exact outcome_of_data declares loaded _
      | ok document =>
          rw [runValidate_of_loaded compiled loaded]
          exact outcome_of_loaded declares (loadData_eq_ok_iff.mp loaded) _ _ _

end Run

/-! ## Deciding the exceptions -/

/-- Whether a run ends with a failure. -/
def Ending.isEscape : Ending → Bool
  | .exit _ => false
  | .escape _ => true

theorem Ending.isEscape_iff (e : Ending) : e.isEscape = true ↔ ∃ x, e = .escape x := by
  cases e <;> simp [isEscape]

/-- A validation is interrupted exactly if it ends with a failure, so it can be tried. -/
instance (host : Host) (files : String → Option String) (schema data : String)
    (o : ValidateOptions) :
    Decidable (Interrupted host files (resolvePath schema) (resolvePath data) o) :=
  decidable_of_iff ((runValidate host files schema data o).ending.isEscape = true)
    ((Ending.isEscape_iff _).trans (runValidate_outcome host files schema data o).promised_iff.2)

/-- Whether a report has a number to print which JSON does not know. -/
def Report.misprints (s : Schema) (o : ValidateOptions) (st : Store) (report : Report) : Bool :=
  if report.valid then !Json.allFinite (bodyOf s o st report.data)
  else o.grouped && !Json.allFinite (violationsValue st report.violations)

theorem Report.misprints_iff {s : Schema} {o : ValidateOptions} {v : Value} {st : Store}
    {report : Report} (reported : (s.validate v st).result = .ok report) :
    Report.misprints s o (s.validate v st).store report = true ↔ Unlimited s o v st := by
  rw [unlimited_iff reported, Report.misprints]
  cases report.valid <;> simp

/-- Whether a run has a number to print which JSON does not know. -/
def misprints (host : Host) (files : String → Option String) (schema data : String)
    (o : ValidateOptions) : Bool :=
  match loadSchema host files schema o, loadData host.load data (files data) Store.empty with
  | .ok s, .ok (v, st) =>
    match (s.validate v st).result with
    | .ok report => Report.misprints s o (s.validate v st).store report
    | .error _ => false
  | _, _ => false

theorem misprints_iff (host : Host) (files : String → Option String) (schema data : String)
    (o : ValidateOptions) :
    misprints host files schema data o = true ↔ Misprinted host files schema data o := by
  rw [misprints]
  split
  next s v st compiled loaded =>
    have declares := declares_iff_loadSchema.mpr compiled
    have holds := loadData_eq_ok_iff.mp loaded
    rw [misprinted_iff_of_holds declares holds]
    split
    next report reported => exact Report.misprints_iff reported
    next f failed =>
      refine iff_of_false nofun fun unlimited => ?_
      cases unlimited with
      | violations reported _ _ _ | body reported _ _ => cases failed.symm.trans reported
  next other =>
    refine iff_of_false nofun fun misprinted => ?_
    obtain ⟨s, v, st, declares, holds, -⟩ := misprinted
    exact other s v st (declares_iff_loadSchema.mp declares) (loadData_eq_ok_iff.mpr holds)

instance (host : Host) (files : String → Option String) (schema data : String)
    (o : ValidateOptions) : Decidable (Misprinted host files schema data o) :=
  decidable_of_iff _ (misprints_iff host files schema data o)

/-! ## The program -/

/-- The options that words ask for. -/
def optionsOf (words : List String) : ValidateOptions :=
  ⟨words.contains "--non-strict", words.contains "--include-all", words.contains "--order-body",
    words.contains "--grouped"⟩

/-- A schema of one text, and data. -/
def noteFiles (content : String) : String → Option String
  | "note.yaml" => some "title: string\n"
  | "data.yaml" => some content
  | _ => none

/-- Whether a run ends with an exit code. -/
def endsWith (code : Nat) : Except Refusal (Level × Transcript) → Bool
  | .ok (_, ⟨.exit own, _, _⟩) => own == code
  | _ => false

theorem ending_of_endsWith {code : Nat} {level : Level} {t : Transcript}
    (ends : endsWith code (.ok (level, t)) = true) : t.ending = .exit code := by
  obtain ⟨ending, output, records⟩ := t
  cases ending with
  | exit own => exact congrArg Ending.exit (eq_of_beq ends)
  | escape x => cases ends

/-- Files with a schema of one number, and a number that is none. -/
def measureFiles : String → Option String
  | "measure.yaml" => some "length: number\n"
  | "data.yaml" => some "length: .nan\n"
  | _ => none

/-- A number that is not finite is printed by its name. -/
example : Misprinted defaultHost measureFiles (resolvePath "measure.yaml") (resolvePath "data.yaml")
    (optionsOf []) := by
  decide +kernel

/-- Whether loading a document fails by a scalar without a value. -/
def failsByScalar (text : String) : Bool :=
  match Yaml.load text Store.empty with
  | .error (.scalar _) => true
  | _ => false

/-- A day that the month does not have is let through, also where it stands in the schema. -/
theorem impossibleDay_escapes (schema data : String) (o : ValidateOptions) :
    ∃ x, (runValidate defaultHost (fun _ => some "a: 2024-02-30") schema data o).ending =
      .escape x := by
  have fails : failsByScalar "a: 2024-02-30" = true := by decide +kernel
  have impossible (path : String) :
      Impossible defaultHost (fun _ => some "a: 2024-02-30") path := by
    rw [failsByScalar] at fails
    split at fails
    next f failed => exact ⟨_, f, rfl, failed⟩
    · cases fails
  exact (runValidate_outcome defaultHost _ schema data o).promised_iff.2.mpr
    (.schemaScalar (impossible _))

end DataContract.CommandLine
