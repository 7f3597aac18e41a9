/-
# Runs of the program

A run reads its arguments and the files they name, and gives what it prints, the
records it logs, and how it ends: with an exit code, or with a failure that it does
not expect. Files are found by their paths below the working directory.

The program relies on a host, which reads documents and takes what is printed.

The exit codes of a validation: 0 for valid data, 2 for invalid data, and 3 if the
schema or the data cannot be loaded.
-/

import DataContract.CommandLine.Log
import DataContract.Json
import DataContract.Schema.Loading
import DataContract.Validation.Body

set_option autoImplicit false

namespace DataContract.CommandLine

-- No document names a function.
open WithoutUserCode

/-- What the program relies on: a reader of documents, and a console, which may be unable to
write a text. -/
structure Host where
  load : Loader
  takes : String → Bool

/-- A host with the reader of this library and a console that writes every character. -/
def defaultHost : Host := ⟨Yaml.load, fun s => !s.toList.any Yaml.isHalfPair⟩

/-- The version of the program. -/
def versionText : String := "1.6.2"

/-- A failure that ends a run without an exit code. -/
inductive Escape where
  | run (f : Fault)
  | scalar (f : Yaml.ScalarFault)
  | declaration (e : SchemaError)
  | output (f : Json.Fault)
  | console

/-- How a run ends. -/
inductive Ending where
  | exit (code : Nat)
  | escape (e : Escape)

/-- What a run prints and logs before it ends. -/
structure Transcript where
  ending : Ending
  output : String
  records : List Record

namespace Transcript

/-- A run that ends with an exit code and prints nothing. -/
def exit (code : Nat) (records : List Record) : Transcript := ⟨.exit code, "", records⟩

/-- A run that ends with a failure and prints nothing. -/
def escape (e : Escape) (records : List Record) : Transcript := ⟨.escape e, "", records⟩

end Transcript

/-- A record of the program. -/
def note (level : Level) (message : String) : Record := ⟨level, .program, message⟩

/-- The record of a compilation. -/
def compiledRecord (s : Schema) : Record :=
  ⟨.debug, .compiler, "Compiled schema with " ++ toString s.rules.length ++ " properties (" ++
    (if s.flex then "flex" else "strict") ++ ")"⟩

/-- The record of a completed validation of one mapping. -/
def tallyRecord (t : Tally) : Record :=
  ⟨.debug, .engine, "Validated " ++ toString t.properties ++ " properties: " ++
    toString t.violations ++ " errors"⟩

/-- Adds a component to those of a path, the latest first. A component that leads
back takes the one before it away. -/
def addComponent (parts : List String) (part : String) : List String :=
  if part.isEmpty || part == "." then parts
  else if part == ".." then
    match parts with
    | last :: rest => if last == ".." then part :: parts else rest
    | [] => [part]
  else part :: parts

/-- The components of a path, without those that lead nowhere. -/
def components (path : String) : List String :=
  ((path.toList.splitOn '/').map String.ofList |>.foldl addComponent []).reverse

/-- The path of a file, without components that lead nowhere. -/
def resolvePath (path : String) : String :=
  let below := joinWith "/" (components path)
  if path.toList.head? == some '/' then "/" ++ below else below

/-- The name of a file. -/
def fileName (path : String) : String := (components path).getLast?.getD ""

/-- What stands in the log for the details of a document that cannot be read. -/
def unreadableText : String := "<yaml error>"

/-- How a run ends that cannot load a file. -/
def refuseFile (role : FileRole) (path : String) : LoadFault → Transcript
  | .missing missed file => failed (missed.missingText file)
  | .unreadable (.scalar f) => Transcript.escape (.scalar f) []
  | .unreadable _ => failed unreadableText
  | .declaration e =>
    if e.isForeign then Transcript.escape (.declaration e) []
    else Transcript.exit 3 [note .error ("Invalid schema " ++ path ++ ": " ++ e.message)]
where
  /-- The run ends with a record of the failure. -/
  failed (details : String) : Transcript :=
    let what := match role with
      | .schema => "schema"
      | .data => "data"
    Transcript.exit 3
      [note .error ("Failed to load " ++ what ++ " " ++ path ++ ": " ++ details)]

/-- The options of a validation. -/
structure ValidateOptions where
  nonStrict : Bool
  includeAll : Bool
  orderBody : Bool
  grouped : Bool

/-- A violation as a mapping. -/
def violationValue (v : Violation) : Value :=
  let message := match v.message with
    | .text s => .text s
    | .folded parts => .list parts
  .object [(.text "key", v.key), (.text "message", message)]

/-- The texts that are printed for invalid data, each on a line. -/
def violationLines (grouped : Bool) (st : Store) (violations : List Violation) :
    Except Json.Fault (List String) :=
  if grouped then
    (Json.render false (st.plain (.list (violations.map violationValue)))).map ([·])
  else
    .ok ((flattenMessages violations).map fun m => "❌ " ++ (st.plain m).shown)

/-- The body of valid data. -/
def bodyOf (s : Schema) (o : ValidateOptions) (st : Store) (data : Value) : Value :=
  st.plain (.object (s.project ⟨o.includeAll, o.orderBody⟩ ((st.head data).entries?.getD [])))

/-- The text that is printed for valid data: its body. -/
def bodyLines (s : Schema) (o : ValidateOptions) (st : Store) (data : Value) :
    Except Json.Fault (List String) :=
  (Json.render true (bodyOf s o st data)).map ([·])

/-- Lines as they stand in the output. -/
def linesText (lines : List String) : String := String.join (lines.map (· ++ "\n"))

/-- Ends a run with the lines that it prints. The console ends it at the first line that it
cannot write. -/
def conclude (host : Host) (code : Nat) (records : List Record) :
    Except Json.Fault (List String) → Transcript
  | .ok lines =>
    if lines.all host.takes then ⟨.exit code, linesText lines, records⟩
    else ⟨.escape .console, linesText (lines.takeWhile host.takes), records⟩
  | .error f => Transcript.escape (.output f) records

/-- Validates loaded data. -/
def validateLoaded (host : Host) (s : Schema) (o : ValidateOptions)
    (dataName schemaName : String) (data : Value) (st : Store) : Transcript :=
  let begun := [note .info ("Validating " ++ dataName ++ " against " ++ schemaName)]
  let visit := s.validate data st
  let records := begun ++ visit.tallies.map tallyRecord
  match visit.result with
  | .error f => Transcript.escape (.run f) records
  | .ok report =>
    if report.valid then
      conclude host 0 (records ++ [note .info ("Validation passed for " ++ dataName)])
        (bodyLines s o visit.store report.data)
    else
      let count := toString report.violations.length
      conclude host 2
        (records ++
          [note .warning ("Validation failed for " ++ dataName ++ ": " ++ count ++ " errors")])
        (violationLines o.grouped visit.store report.violations)

/-- Puts records in front of those of a run. -/
def Transcript.after (records : List Record) (t : Transcript) : Transcript :=
  { t with records := records ++ t.records }

/-- Loads a schema and data and validates the data. -/
def runValidate (host : Host) (files : String → Option String) (schema data : String)
    (o : ValidateOptions) : Transcript :=
  let schemaPath := resolvePath schema
  let dataPath := resolvePath data
  let compiled := do
    let entries ← loadDeclaration host.load schemaPath (files schemaPath)
    (Declaration.compile (.object entries) !o.nonStrict).mapError .declaration
  match compiled with
  | .error e => refuseFile .schema schemaPath e
  | .ok s =>
    Transcript.after [compiledRecord s] <|
      match loadData host.load dataPath (files dataPath) Store.empty with
      | .error e => refuseFile .data dataPath e
      | .ok (v, st) => validateLoaded host s o (fileName data) (fileName schema) v st

/-- Runs a command. -/
def runCommand (host : Host) (files : String → Option String) : Command → Transcript
  | .version => ⟨.exit 0, versionText ++ "\n", []⟩
  | .validate schema data nonStrict includeAll orderBody grouped =>
    runValidate host files schema data ⟨nonStrict, includeAll, orderBody, grouped⟩

/-- Runs the program: gives the level of its log and what it does. -/
def run (host : Host) (files : String → Option String) (words : List String) :
    Except Refusal (Level × Transcript) := do
  let arguments ← readArguments words
  let level := arguments.verbosity.level
  let t := runCommand host files arguments.command
  return (level, { t with records := shownAt level t.records })

end DataContract.CommandLine
