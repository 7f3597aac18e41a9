/-
# Arguments of the command line

The program takes options of its own, then the name of a command, then the options
and operands of the command. Long options may be shortened as long as they are
told apart. Words are taken from left to right: asking for help ends the program at
once, and so does a fault, except for words that nobody takes, which are reported
in the end.
-/

import DataContract.Text.Digit

set_option autoImplicit false

namespace DataContract.CommandLine

/-- What a word is to a command that knows some options. A text that is attached to an
option stands with its equals sign, if it has one. -/
inductive Word where
  | plain (text : String)
  | separator
  | option (name : String) (attached : Option String)
  | stranger
  | ambiguous
deriving DecidableEq

/-- Whether characters are digits, and there are some. -/
def isNumeral (cs : List Char) : Bool := !cs.isEmpty && cs.all Text.isDigit

/-- Whether a word after its hyphen is a number. -/
def isNumber (cs : List Char) : Bool :=
  isNumeral cs ||
    (match cs.dropWhile Text.isDigit with
      | '.' :: rest => isNumeral rest
      | _ => false)

/-- A word split in front of its first equals sign. -/
def splitAttached (cs : List Char) : List Char × Option String :=
  match cs.dropWhile (· != '=') with
  | [] => (cs, none)
  | attached => (cs.takeWhile (· != '='), some (String.ofList attached))

/-- The options that a word can stand for, with the text that is attached to it. -/
def candidates (options : List String) (cs : List Char) : List (String × Option String) :=
  match cs with
  | '-' :: '-' :: _ =>
    let (beginning, attached) := splitAttached cs
    (options.filter fun name => beginning.isPrefixOf name.toList).map (·, attached)
  | _ =>
    options.filterMap fun name =>
      if name.toList == cs.take 2 then some (name, some (String.ofList (cs.drop 2)))
      else if cs.isPrefixOf name.toList then some (name, none)
      else none

/-- Tells what a word is. -/
def classify (options : List String) (word : String) : Word :=
  let cs := word.toList
  let (beginning, attached) := splitAttached cs
  if cs.head? != some '-' || cs.length == 1 then .plain word
  else if options.contains word then .option word none
  else if attached.isSome && options.contains (String.ofList beginning) then
    .option (String.ofList beginning) attached
  else
    match candidates options cs with
    | [(name, attached)] => .option name attached
    | _ :: _ => .ambiguous
    | [] => if isNumber cs.tail || cs.contains ' ' then .plain word else .stranger

/-- Tells what words are, up to the first separator; all words after it are plain. -/
def classifyAll (options : List String) : List String → List Word
  | [] => []
  | word :: rest =>
    if word == "--" then .separator :: rest.map .plain
    else classify options word :: classifyAll options rest

/-- How the reading of arguments ends without a command to run. -/
inductive Refusal where
  | help
  | usage
deriving DecidableEq

/-- What characters after the short option for help mean: more options in one letter, of
which those that are unknown do not matter any more. -/
def helpWithLetters : List Char → Refusal
  | [] => .help
  | 'h' :: rest => helpWithLetters rest
  | c :: _ => if c == '=' || c == '-' then .usage else .help

/-- What asking for help with an attached text means. -/
def helpWith (name : String) : Option String → Refusal
  | none => .help
  | some text => if name == "-h" then helpWithLetters text.toList else .usage

/-- The options that ask for help. -/
def helpOptions : List String := ["-h", "--help"]

/-- Takes an option: help ends the reading, and no option has an argument. -/
def takeOption (given : List String) (name : String) (attached : Option String) :
    Except Refusal (List String) :=
  if helpOptions.contains name then .error (helpWith name attached)
  else if attached.isSome then .error .usage
  else .ok (name :: given)

/-- What has been read of the arguments of a command: its options, its operands with
the latest first, whether the last word was an operand, and whether there was a word
that nobody takes. -/
structure Taken where
  options : List String
  operands : List String
  afterOperand : Bool
  strangers : Bool

/-- Takes the words of a command that wants some operands. A separator has to stand next
to an operand. -/
def takeWords (wanted : Nat) : List Word → Taken → Except Refusal Taken
  | [], t => .ok t
  | .plain text :: rest, t =>
    if t.operands.length < wanted then
      takeWords wanted rest { t with operands := text :: t.operands, afterOperand := true }
    else takeWords wanted rest { t with strangers := true, afterOperand := false }
  | .separator :: rest, t =>
    let taken := t.afterOperand || (!rest.isEmpty && t.operands.length < wanted)
    takeWords wanted rest { t with strangers := t.strangers || !taken, afterOperand := false }
  | .option name attached :: rest, t =>
    match takeOption t.options name attached with
    | .ok options => takeWords wanted rest { t with options, afterOperand := false }
    | .error e => .error e
  | .stranger :: rest, t =>
    takeWords wanted rest { t with strangers := true, afterOperand := false }
  | .ambiguous :: _, _ => .error .usage

/-- Reads the arguments of a command that wants some operands. -/
def readCommand (options : List String) (wanted : Nat) (words : List String) :
    Except Refusal Taken := do
  let words := classifyAll (helpOptions ++ options) words
  if words.contains .ambiguous then throw .usage
  let taken ← takeWords wanted words ⟨[], [], false, false⟩
  if taken.operands.length < wanted then throw .usage
  return taken

/-- A command with its options. -/
inductive Command where
  | version
  | validate (schema data : String) (nonStrict includeAll orderBody grouped : Bool)
deriving DecidableEq

/-- The options about what is logged. -/
structure Verbosity where
  verbose : Bool
  warningsOnly : Bool
  errorsOnly : Bool
deriving DecidableEq

/-- What the program is asked to do. -/
structure Arguments where
  verbosity : Verbosity
  command : Command
deriving DecidableEq

/-- The options of the program. -/
def programOptions : List String := ["--verbose", "--warnings-only", "--errors-only"]

/-- The options of a validation. -/
def validateOptions : List String :=
  ["--non-strict", "--include-all", "--order-body", "--grouped"]

/-- Reads a command with its arguments; also tells whether there was a word that nobody
takes. -/
def readNamed (name : String) (words : List String) : Except Refusal (Command × Bool) := do
  if name == "version" then
    let t ← readCommand [] 0 words
    return (.version, t.strangers)
  else if name == "validate" then
    let t ← readCommand validateOptions 2 words
    let has (option : String) := t.options.contains option
    match t.operands with
    | [data, schema] =>
      return (.validate schema data (has "--non-strict") (has "--include-all")
        (has "--order-body") (has "--grouped"), t.strangers)
    | _ => throw .usage
  else throw .usage

/-- Reads the options in front of the command, then the command. -/
def readProgram : List String → List String → Bool → Except Refusal Arguments
  | [], _, _ => .error .usage
  | word :: rest, given, strangers =>
    match classify (helpOptions ++ programOptions) word with
    | .option name attached =>
      match takeOption given name attached with
      | .ok given => readProgram rest given strangers
      | .error e => .error e
    | .stranger => readProgram rest given true
    | .plain name =>
      if word == "--" then .error .usage
      else
        match readNamed name rest with
        | .error e => .error e
        | .ok (command, more) =>
          let has (option : String) := given.contains option
          let verbosity : Verbosity :=
            ⟨has "--verbose", has "--warnings-only", has "--errors-only"⟩
          if strangers || more then .error .usage else .ok ⟨verbosity, command⟩
    | .separator | .ambiguous => .error .usage

/-- Reads the arguments of the program. A word that could be several of its options is
refused wherever it stands in front of a separator. -/
def readArguments (words : List String) : Except Refusal Arguments :=
  if (classifyAll (helpOptions ++ programOptions) words).contains .ambiguous then .error .usage
  else readProgram words [] false

end DataContract.CommandLine
