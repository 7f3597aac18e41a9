/-
# What the program promises of a validation

A validation ends with the exit code for files that cannot be loaded, for invalid data or for
valid data, and prints what belongs to it. The promise is said of what the files hold, as the host
reads them, and of what a JSON document is, not of how the program goes through its work.

There are two kinds of exceptions. A failure is let through: a scalar of a sort that has no value,
a declaration that is refused in another way than declarations are, a failure of the validation
itself, output with keys or messages that have no JSON text, and a console that cannot write a
character. Or a number that is not finite is printed by its name, and what is printed is no JSON
document.

Here is what becomes of each file, alone and by the two loaders.
-/

import DataContract.CommandLine.Run
import DataContract.Proofs.JsonDocument
import DataContract.Proofs.Schema.Compiled

set_option autoImplicit false

namespace DataContract.CommandLine

open WithoutUserCode

/-! ## What files hold -/

/-- A file that is there and holds a document with a value. -/
def Holds (host : Host) (files : String → Option String) (path : String) (v : Value)
    (st : Store) : Prop :=
  ∃ text, files path = some text ∧ host.load text Store.empty = .ok (v, st)

/-- A file that is missing or holds no document. -/
def Unloadable (host : Host) (files : String → Option String) (path : String) : Prop :=
  ∀ text, files path = some text → ∃ e, host.load text Store.empty = .error e

/-- A document that is a well-formed declaration. -/
def WellFormedDocument (v : Value) : Prop :=
  ∃ entries, declarationOf v = .ok entries ∧ Declaration.WellFormed (.object entries)

/-- A file with a well-formed declaration, and the schema that it declares. -/
def Declares (host : Host) (files : String → Option String) (path : String)
    (o : ValidateOptions) (s : Schema) : Prop :=
  ∃ v st entries, Holds host files path v st ∧ declarationOf (st.plain v) = .ok entries ∧
    Declaration.compile (.object entries) (!o.nonStrict) = .ok s

/-! ## The promise and its exceptions -/

/-- Violations as one value. -/
def violationsValue (st : Store) (violations : List Violation) : Value :=
  st.plain (.list (violations.map violationValue))

/-- A line with a JSON document of a value is printed, and nothing else. -/
def DocumentPrinted (lenient : Bool) (v : Value) (output : String) : Prop :=
  ∃ document ∈ Json.documents lenient v, output = String.ofList document ++ "\n"

/-- The text of violations: a JSON document of all of them, or a line for each message. -/
def ViolationsPrinted (o : ValidateOptions) (st : Store) (violations : List Violation)
    (output : String) : Prop :=
  if o.grouped then DocumentPrinted false (violationsValue st violations) output
  else
    output = String.join ((flattenMessages violations).map fun m =>
      "❌ " ++ (st.plain m).shown ++ "\n")

/-- What the program promises of a validation of two files. -/
structure Promised (host : Host) (files : String → Option String) (schema data : String)
    (o : ValidateOptions) (t : Transcript) : Prop where
  exits : ∃ code ∈ [0, 2, 3], t.ending = .exit code
  refused :
    (Unloadable host files schema ∨
      (∃ v st, Holds host files schema v st ∧ ¬ WellFormedDocument (st.plain v)) ∨
      Unloadable host files data) →
    t.ending = .exit 3 ∧ t.output = ""
  invalid : ∀ s v st report, Declares host files schema o s → Holds host files data v st →
    (s.validate v st).result = .ok report → report.valid = false →
    t.ending = .exit 2 ∧ ViolationsPrinted o (s.validate v st).store report.violations t.output
  valid : ∀ s v st report, Declares host files schema o s → Holds host files data v st →
    (s.validate v st).result = .ok report → report.valid = true →
    t.ending = .exit 0 ∧
      DocumentPrinted true (bodyOf s o (s.validate v st).store report.data) t.output

/-- A document that fails by a scalar which has no value, such as a day that no month
has. -/
def Impossible (host : Host) (files : String → Option String) (path : String) : Prop :=
  ∃ text f, files path = some text ∧ host.load text Store.empty = .error (.scalar f)

/-- A declaration that is not refused as declarations are: a pattern repeats something too often
to be counted or has options that clash, or the declaration has no end. -/
def Foreign (host : Host) (files : String → Option String) (path : String) : Prop :=
  ∃ v st e, Holds host files path v st ∧ declarationOf (st.plain v) = .error e ∧
    e.isForeign = true

/-- A validation that fails itself, or whose outcome has no JSON text or cannot be written to the
console. -/
inductive Unreportable (host : Host) (s : Schema) (o : ValidateOptions) (v : Value)
    (st : Store) : Prop
  | fault {f : Fault} : (s.validate v st).result = .error f → Unreportable host s o v st
  | violations {report : Report} : (s.validate v st).result = .ok report →
      report.valid = false → o.grouped = true →
      Json.isWritable false (violationsValue (s.validate v st).store report.violations) = false →
      Unreportable host s o v st
  | body {report : Report} : (s.validate v st).result = .ok report → report.valid = true →
      Json.isWritable true (bodyOf s o (s.validate v st).store report.data) = false →
      Unreportable host s o v st
  | violationLine {report : Report} {lines : List String} :
      (s.validate v st).result = .ok report → report.valid = false →
      violationLines o.grouped (s.validate v st).store report.violations = .ok lines →
      lines.all host.takes = false → Unreportable host s o v st
  | bodyLine {report : Report} {lines : List String} :
      (s.validate v st).result = .ok report → report.valid = true →
      bodyLines s o (s.validate v st).store report.data = .ok lines →
      lines.all host.takes = false → Unreportable host s o v st

/-- What ends a run with a failure that it does not expect. -/
inductive Interrupted (host : Host) (files : String → Option String) (schema data : String)
    (o : ValidateOptions) : Prop
  | schemaScalar : Impossible host files schema → Interrupted host files schema data o
  | schemaForeign : Foreign host files schema → Interrupted host files schema data o
  | dataScalar {s : Schema} : Declares host files schema o s → Impossible host files data →
      Interrupted host files schema data o
  | run {s : Schema} {v : Value} {st : Store} : Declares host files schema o s →
      Holds host files data v st → Unreportable host s o v st →
      Interrupted host files schema data o

/-- A validation whose outcome is to be printed as JSON and has a number that is not finite. -/
inductive Unlimited (s : Schema) (o : ValidateOptions) (v : Value) (st : Store) : Prop
  | violations {report : Report} : (s.validate v st).result = .ok report →
      report.valid = false → o.grouped = true →
      Json.allFinite (violationsValue (s.validate v st).store report.violations) = false →
      Unlimited s o v st
  | body {report : Report} : (s.validate v st).result = .ok report → report.valid = true →
      Json.allFinite (bodyOf s o (s.validate v st).store report.data) = false →
      Unlimited s o v st

/-- A run that has a number to print which JSON does not know. -/
def Misprinted (host : Host) (files : String → Option String) (schema data : String)
    (o : ValidateOptions) : Prop :=
  ∃ s v st, Declares host files schema o s ∧ Holds host files data v st ∧ Unlimited s o v st

/-! ## Each file alone -/

section Files

variable {host : Host} {files : String → Option String} {path : String} {o : ValidateOptions}

theorem Holds.unique {v v' : Value} {st st' : Store} (one : Holds host files path v st)
    (other : Holds host files path v' st') : v = v' ∧ st = st' := by
  obtain ⟨text, found, loaded⟩ := one
  obtain ⟨text', found', loaded'⟩ := other
  cases found.symm.trans found'
  cases loaded.symm.trans loaded'
  exact ⟨rfl, rfl⟩

theorem Holds.not_unloadable {v : Value} {st : Store} (holds : Holds host files path v st) :
    ¬ Unloadable host files path := by
  obtain ⟨text, found, loaded⟩ := holds
  intro unloadable
  obtain ⟨e, failed⟩ := unloadable text found
  cases failed.symm.trans loaded

theorem not_holds_of_missing (missing : files path = none) (v : Value) (st : Store) :
    ¬ Holds host files path v st := by
  intro holds
  obtain ⟨text, found, -⟩ := holds
  cases missing.symm.trans found

theorem not_impossible_of_missing (missing : files path = none) :
    ¬ Impossible host files path := by
  intro impossible
  obtain ⟨text, f, found, -⟩ := impossible
  cases missing.symm.trans found

theorem not_holds_of_unread {text : String} {e : Yaml.Error} (found : files path = some text)
    (unread : host.load text Store.empty = .error e) (v : Value) (st : Store) :
    ¬ Holds host files path v st := by
  intro holds
  obtain ⟨text', found', read⟩ := holds
  cases found.symm.trans found'
  cases unread.symm.trans read

theorem impossible_iff_of_unread {text : String} {e : Yaml.Error}
    (found : files path = some text) (unread : host.load text Store.empty = .error e) :
    Impossible host files path ↔ ∃ f, e = .scalar f := by
  constructor
  · intro impossible
    obtain ⟨text', f, found', failed⟩ := impossible
    cases found.symm.trans found'
    cases unread.symm.trans failed
    exact ⟨f, rfl⟩
  · intro isScalar
    obtain ⟨f, rfl⟩ := isScalar
    exact ⟨text, f, found, unread⟩

theorem Holds.not_impossible {v : Value} {st : Store} (holds : Holds host files path v st) :
    ¬ Impossible host files path := by
  intro impossible
  obtain ⟨text, f, found, failed⟩ := impossible
  exact not_holds_of_unread found failed v st holds

/-- Whether a declaration is refused in a foreign way depends on its document alone. -/
theorem Holds.foreign_iff {v : Value} {st : Store} (holds : Holds host files path v st) :
    Foreign host files path ↔ ∃ e, declarationOf (st.plain v) = .error e ∧ e.isForeign = true := by
  constructor
  · intro foreign
    obtain ⟨v', st', e, holds', refused⟩ := foreign
    obtain ⟨rfl, rfl⟩ := holds.unique holds'
    exact ⟨e, refused⟩
  · intro refused
    obtain ⟨e, refused⟩ := refused
    exact ⟨v, st, e, holds, refused⟩

theorem Declares.unique {s s' : Schema} (one : Declares host files path o s)
    (other : Declares host files path o s') : s = s' := by
  obtain ⟨v, st, entries, holds, declared, compiled⟩ := one
  obtain ⟨v', st', entries', holds', declared', compiled'⟩ := other
  obtain ⟨rfl, rfl⟩ := holds.unique holds'
  cases declared.symm.trans declared'
  exact Except.ok.inj (compiled.symm.trans compiled')

/-- A file declares a schema exactly if it holds a well-formed declaration. -/
theorem exists_declares_iff (host : Host) (files : String → Option String) (path : String)
    (o : ValidateOptions) :
    (∃ s, Declares host files path o s) ↔
      ∃ v st, Holds host files path v st ∧ WellFormedDocument (st.plain v) := by
  constructor
  · intro declares
    obtain ⟨s, v, st, entries, holds, declared, compiled⟩ := declares
    exact ⟨v, st, holds, entries, declared,
      (Declaration.compile_isOk_iff _ _).mp ⟨s, compiled⟩⟩
  · intro isWellFormed
    obtain ⟨v, st, holds, entries, declared, wellFormed⟩ := isWellFormed
    obtain ⟨s, compiled⟩ :=
      (Declaration.compile_isOk_iff (.object entries) (!o.nonStrict)).mpr wellFormed
    exact ⟨s, v, st, entries, holds, declared, compiled⟩

end Files

/-! ## Loading -/

/-- A failure to load that is let through. -/
def LetThrough (e : LoadFault) : Prop :=
  (∃ f, e = .unreadable (.scalar f)) ∨ ∃ cause, e = .declaration cause ∧ cause.isForeign = true

theorem not_letThrough_missing (role : FileRole) (path : String) :
    ¬ LetThrough (.missing role path) := by
  simp [LetThrough]

theorem letThrough_unreadable_iff (e : Yaml.Error) :
    LetThrough (.unreadable e) ↔ ∃ f, e = .scalar f := by
  simp [LetThrough]

theorem letThrough_declaration_iff (e : SchemaError) :
    LetThrough (.declaration e) ↔ e.isForeign = true := by
  simp [LetThrough]

theorem refuseFile_of_letThrough (role : FileRole) (path : String) {e : LoadFault}
    (through : LetThrough e) : ∃ x, (refuseFile role path e).ending = .escape x := by
  rcases through with ⟨f, rfl⟩ | ⟨cause, rfl, foreign⟩
  · exact ⟨.scalar f, rfl⟩
  · refine ⟨.declaration cause, ?_⟩
    rw [refuseFile, if_pos foreign]
    rfl

/-- A failure to load that is not let through is what the third exit code is for. -/
theorem refuseFile_of_not_letThrough (role : FileRole) (path : String) {e : LoadFault}
    (caught : ¬ LetThrough e) :
    (refuseFile role path e).ending = .exit 3 ∧ (refuseFile role path e).output = "" := by
  rw [refuseFile.eq_def]
  split
  · exact ⟨rfl, rfl⟩
  next f => exact absurd (.inl ⟨f, rfl⟩) caught
  · exact ⟨rfl, rfl⟩
  next cause =>
    rw [letThrough_declaration_iff] at caught
    rw [if_neg caught]
    exact ⟨rfl, rfl⟩

/-- The schema in a file, or why there is none. -/
def loadSchema (host : Host) (files : String → Option String) (path : String)
    (o : ValidateOptions) : Except LoadFault Schema := do
  let entries ← loadDeclaration host.load path (files path)
  (Declaration.compile (.object entries) !o.nonStrict).mapError .declaration

section Loading

variable {host : Host} {files : String → Option String} {path : String} {o : ValidateOptions}

/-- Loading a schema fails at the file, at the document, at the declaration, or at the
compilation, or gives the schema that the file declares. -/
theorem loadSchema_cases (host : Host) (files : String → Option String) (path : String)
    (o : ValidateOptions) :
    (files path = none ∧ loadSchema host files path o = .error (.missing .schema path)) ∨
    (∃ text e, files path = some text ∧ host.load text Store.empty = .error e ∧
      loadSchema host files path o = .error (.unreadable e)) ∨
    (∃ v st e, Holds host files path v st ∧ declarationOf (st.plain v) = .error e ∧
      loadSchema host files path o = .error (.declaration e)) ∨
    (∃ v st entries e, Holds host files path v st ∧
      declarationOf (st.plain v) = .ok entries ∧
      Declaration.compile (.object entries) (!o.nonStrict) = .error e ∧
      loadSchema host files path o = .error (.declaration e)) ∨
    ∃ s, Declares host files path o s ∧ loadSchema host files path o = .ok s := by
  rw [loadSchema, loadDeclaration]
  cases found : files path with
  | none => exact .inl ⟨rfl, rfl⟩
  | some text =>
      cases read : host.load text Store.empty with
      | error e =>
          refine .inr (.inl ⟨text, e, rfl, read, ?_⟩)
          simp [loadFile, read, bind, Except.bind, Except.mapError]
      | ok document =>
          obtain ⟨v, st⟩ := document
          have holds : Holds host files path v st := ⟨text, found, read⟩
          cases declared : declarationOf (st.plain v) with
          | error e =>
              refine .inr (.inr (.inl ⟨v, st, e, holds, declared, ?_⟩))
              simp [loadFile, read, declared, bind, Except.bind, Except.mapError]
          | ok entries =>
              cases compiled : Declaration.compile (.object entries) (!o.nonStrict) with
              | error e =>
                  refine .inr (.inr (.inr (.inl
                    ⟨v, st, entries, e, holds, declared, compiled, ?_⟩)))
                  simp [loadFile, read, declared, compiled, bind, Except.bind, Except.mapError]
              | ok s =>
                  refine .inr (.inr (.inr (.inr
                    ⟨s, ⟨v, st, entries, holds, declared, compiled⟩, ?_⟩)))
                  simp [loadFile, read, declared, compiled, bind, Except.bind, Except.mapError]

/-- Loading a schema gives the schema that the file declares. -/
theorem declares_iff_loadSchema {s : Schema} :
    Declares host files path o s ↔ loadSchema host files path o = .ok s := by
  constructor
  · intro declares
    obtain ⟨v, st, entries, ⟨text, found, read⟩, declared, compiled⟩ := declares
    simp [loadSchema, loadDeclaration, loadFile, found, read, declared, compiled, bind,
      Except.bind, Except.mapError]
  · intro loaded
    rcases loadSchema_cases host files path o with ⟨-, other⟩ | ⟨_, _, -, -, other⟩ |
      ⟨_, _, _, -, -, other⟩ | ⟨_, _, _, _, -, -, -, other⟩ | ⟨own, declares, other⟩
    all_goals cases loaded.symm.trans other
    exact declares

theorem not_foreign_of_not_holds (none : ∀ v st, ¬ Holds host files path v st) :
    ¬ Foreign host files path := by
  intro foreign
  obtain ⟨v, st, -, holds, -⟩ := foreign
  exact none v st holds

/-- A failure to load a schema is let through exactly for the two exceptions. -/
theorem letThrough_loadSchema_iff {e : LoadFault}
    (failed : loadSchema host files path o = .error e) :
    LetThrough e ↔ Impossible host files path ∨ Foreign host files path := by
  rcases loadSchema_cases host files path o with ⟨missing, other⟩ |
    ⟨text, cause, found, unread, other⟩ | ⟨v, st, cause, holds, refused, other⟩ |
    ⟨v, st, entries, cause, holds, declared, refused, other⟩ | ⟨own, declares, other⟩
  all_goals cases failed.symm.trans other
  · exact iff_of_false (not_letThrough_missing .schema path)
      (not_or.mpr ⟨not_impossible_of_missing missing,
        not_foreign_of_not_holds (not_holds_of_missing missing)⟩)
  · rw [letThrough_unreadable_iff, impossible_iff_of_unread found unread]
    exact (or_iff_left (not_foreign_of_not_holds (not_holds_of_unread found unread))).symm
  · rw [letThrough_declaration_iff, or_iff_right holds.not_impossible, holds.foreign_iff, refused]
    simp
  · -- The document has been parsed, and the compiler fails with errors of its own only.
    rw [letThrough_declaration_iff, or_iff_right holds.not_impossible, holds.foreign_iff, declared]
    simp [Declaration.compile_readable _ _ cause refused]

theorem loadData_eq_ok_iff {v : Value} {st : Store} :
    loadData host.load path (files path) Store.empty = .ok (v, st) ↔
      Holds host files path v st := by
  cases found : files path with
  | none => exact iff_of_false nofun (not_holds_of_missing found v st)
  | some text =>
      cases read : host.load text Store.empty with
      | error e =>
          refine iff_of_false ?_ (not_holds_of_unread found read v st)
          simp [loadData, loadFile, read, Except.mapError]
      | ok document =>
          simp only [loadData, loadFile, read, Except.mapError, Except.ok.injEq]
          constructor
          · rintro rfl
            exact ⟨text, found, read⟩
          · intro holds
            obtain ⟨text', found', read'⟩ := holds
            cases found.symm.trans found'
            exact Except.ok.inj (read.symm.trans read')

/-- Data that cannot be loaded are missing or unreadable, and the failure is let through
exactly for the exception. -/
theorem loadData_error {e : LoadFault}
    (failed : loadData host.load path (files path) Store.empty = .error e) :
    Unloadable host files path ∧ (LetThrough e ↔ Impossible host files path) := by
  cases found : files path with
  | none =>
      rw [found] at failed
      cases failed
      constructor
      · intro text there
        cases found.symm.trans there
      · exact iff_of_false (not_letThrough_missing .data path) (not_impossible_of_missing found)
  | some text =>
      cases read : host.load text Store.empty with
      | error cause =>
          simp [found, loadData, loadFile, read, Except.mapError] at failed
          subst failed
          constructor
          · intro text' there
            cases found.symm.trans there
            exact ⟨cause, read⟩
          · rw [letThrough_unreadable_iff, impossible_iff_of_unread found read]
      | ok document => simp [found, loadData, loadFile, read, Except.mapError] at failed

end Loading

end DataContract.CommandLine
