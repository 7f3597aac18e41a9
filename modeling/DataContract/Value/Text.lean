/-
# The text of a value

`Value.shown` is how a value is shown inside a message: a text as it is, a day by
its date, anything else as it is written. `Value.written` is how a value is
written inside another one: texts are quoted and days are written as the calls
that make them.
-/

import DataContract.Text.Quoted
import DataContract.Value.Category

set_option autoImplicit false

namespace DataContract

/-- Texts with a separator between each two. -/
def joinWith (separator : String) (parts : List String) : String :=
  separator.intercalate parts

/-- The written form of a day. -/
def Date.written (d : Date) : String :=
  "datetime.date(" ++ joinWith ", " [toString d.year, toString d.month, toString d.day] ++ ")"

/-- The written form of the length of time that an offset is. -/
def writtenDuration (microseconds : Int) : String :=
  let days := microseconds.fdiv microsecondsPerDay
  let rest := microseconds.fmod microsecondsPerDay
  let part (name : String) (n : Int) : List String :=
    if n == 0 then [] else [name ++ "=" ++ toString n]
  let parts := part "days" days ++ part "seconds" (rest / 1000000) ++
    part "microseconds" (rest % 1000000)
  "datetime.timedelta(" ++ (if parts.isEmpty then "0" else joinWith ", " parts) ++ ")"

/-- The written form of a zone. -/
def writtenZone (offset : Int) : String :=
  if offset == 0 then "datetime.timezone.utc"
  else "datetime.timezone(" ++ writtenDuration offset ++ ")"

/-- The written form of a moment; seconds and microseconds at the end are left out
if they are zero. -/
def Moment.written (m : Moment) : String :=
  let t := m.time
  let small :=
    if t.microsecond != 0 then [t.second, t.microsecond]
    else if t.second != 0 then [t.second]
    else []
  let fields := [m.date.year, m.date.month, m.date.day, t.hour, t.minute] ++ small
  let zone := match m.offset with
    | none => []
    | some offset => ["tzinfo=" ++ writtenZone offset]
  "datetime.datetime(" ++ joinWith ", " (fields.map toString ++ zone) ++ ")"

/-- The written form of a type token. -/
def TypeToken.written : TypeToken → String
  | .callable => "<built-in function callable>"
  | .callableInterface => "<class 'collections.abc.Callable'>"
  | .date => "<class 'datetime.date'>"
  | .moment => "<class 'datetime.datetime'>"
  | t => "<class '" ++ t.name ++ "'>"

/-- The written form of a pattern's options. -/
def Pattern.Options.written (o : Pattern.Options) : List String :=
  (if o.ignoreCase then ["re.IGNORECASE"] else []) ++
  (if o.multiline then ["re.MULTILINE"] else []) ++
  (if o.dotAll then ["re.DOTALL"] else []) ++
  (if o.verbose then ["re.VERBOSE"] else []) ++
  (if o.ascii then ["re.ASCII"] else [])

/-- The written form of a pattern. -/
def Pattern.written (p : Pattern) : String :=
  let options := p.options.written
  let source :=
    if p.ofBytes then Text.quotedBytes (p.source.toList.map fun c => UInt8.ofNat c.toNat)
    else Text.quoted p.source
  "re.compile(" ++ source ++
    (if options.isEmpty then "" else ", " ++ joinWith "|" options) ++ ")"

mutual

/-- How a value is written inside another one. -/
def Value.written : Value → String
  | .null => "None"
  | .bool b => if b then "True" else "False"
  | .int n => toString n
  | .float x => x.text
  | .text s => Text.quoted s
  | .bytes bytes => Text.quotedBytes bytes
  | .date d => d.written
  | .moment m => m.written
  | .list items => "[" ++ joinWith ", " (writtenItems items) ++ "]"
  | .tuple [item] => "(" ++ item.written ++ ",)"
  | .tuple items => "(" ++ joinWith ", " (writtenItems items) ++ ")"
  | .set [] => "set()"
  | .set members => "\x7b" ++ joinWith ", " (writtenItems members) ++ "\x7d"
  | .object entries => "\x7b" ++ joinWith ", " (writtenEntries entries) ++ "\x7d"
  | .frozen entries => "mappingproxy(\x7b" ++ joinWith ", " (writtenEntries entries) ++ "\x7d)"
  | .callable (.token t) => t.written
  | .callable (.function _ name) => "<function " ++ name ++ ">"
  | .pattern p => p.written
  | .thing _ className => "<" ++ className ++ " object>"
  | .schema _ ⟨rules, flex⟩ =>
    "CompiledSchema([" ++ joinWith ", " (writtenNames rules) ++ "], " ++
      (if flex then "flex" else "strict") ++ ")"
  | .validator _ ⟨rules, flex⟩ =>
    "Schemy(CompiledSchema([" ++ joinWith ", " (writtenNames rules) ++ "], " ++
      (if flex then "flex" else "strict") ++ "))"
  | .rule _ => "<PropertyRule object>"
  | .plugin _ _ => "<Plugin object>"
  | .shared _ => "<shared object>"
  termination_by structural v => v

/-- The written forms of some values. -/
def writtenItems : List Value → List String
  | [] => []
  | v :: rest => v.written :: writtenItems rest
  termination_by structural items => items

/-- The written forms of some entries. -/
def writtenEntries : List (Value × Value) → List String
  | [] => []
  | (k, v) :: rest => (k.written ++ ": " ++ v.written) :: writtenEntries rest
  termination_by structural entries => entries

/-- The written forms of the names of some rules. -/
def writtenNames : List Rule → List String
  | [] => []
  | r :: rest => r.writtenName :: writtenNames rest
  termination_by structural rules => rules

/-- The written form of the name of a rule. -/
def Rule.writtenName (r : Rule) : String :=
  match r with
  | { name, .. } => name.written
  termination_by structural r

end

/-- How a value is shown inside a message. Limits of the machine are left out here, as is that
on the digits of a numeral that is written; that on the digits of one that is read decides
which texts are dates and stands in `Text.greatestDigitCount`. -/
def Value.shown : Value → String
  | .text s => s
  | .date d => d.text
  | .moment m => m.text
  | v => v.written

/-- The written form of a schema: the names in order and the mode. -/
def Schema.written (s : Schema) : String := (Value.schema 0 s).written

end DataContract
