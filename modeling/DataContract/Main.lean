/-
# The program

Reads the files that the arguments name, runs, prints what the run prints, and
writes the log to the error stream.
-/

import DataContract.CommandLine.Run

set_option autoImplicit false

namespace DataContract.CommandLine

/-- How the program is called. -/
def usageText : String :=
  "usage: schemy [--verbose] [--warnings-only] [--errors-only] (validate SCHEMA DATA " ++
    "[--non-strict] [--include-all] [--order-body] [--grouped] | version)"

/-- The paths of the files that a command reads. -/
def pathsOf : Command → List String
  | .version => []
  | .validate schema data .. => [resolvePath schema, resolvePath data]

/-- Reads the files that can be read. -/
def readFiles (paths : List String) : IO (List (String × String)) :=
  paths.filterMapM fun (path : String) => do
    try return some (path, ← IO.FS.readFile path)
    catch _ => return none

/-- Shows what a run did, and gives its exit code. -/
def showTranscript (t : Transcript) : IO UInt32 := do
  for r in t.records do
    IO.eprintln (r.level.name ++ ":" ++ r.source.name ++ ": " ++ r.message)
  IO.print t.output
  match t.ending with
  | .exit code => return UInt32.ofNat code
  | .escape _ =>
    IO.eprintln "The run was stopped by a failure."
    return 1

end DataContract.CommandLine

open DataContract.CommandLine in
/-- The program. -/
def main (words : List String) : IO UInt32 := do
  match readArguments words with
  | .error .help =>
    IO.println usageText
    return 0
  | .error .usage =>
    IO.eprintln usageText
    return 2
  | .ok arguments =>
    let files ← readFiles (pathsOf arguments.command)
    match run defaultHost (fun path => files.lookup path) words with
    | .ok (_, t) => showTranscript t
    | .error _ => return 2
