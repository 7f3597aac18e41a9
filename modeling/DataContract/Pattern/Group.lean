/-
# Marks of groups

What stands between the opening parenthesis of a group and its content: a name, a
question mark with the kind of the group, options for the whole pattern or for the
group, the group that a choice depends on, or a comment.
-/

import DataContract.Pattern.Escape
import DataContract.Text.Blank
import DataContract.Text.Integer
import DataContract.Text.Letter

set_option autoImplicit false

namespace DataContract.Pattern

open Text

/-- Whether a text is a name. -/
def isName (name : List Char) : Bool := name.all isWord && !(name.head?.any isDigit)

/-- Reads what names a group, up to its terminator; `name` holds what has been read of it,
last first. -/
def readUntil (terminator : Char) : Nat → List Char → Reader (List Char)
  | 0, name => return name.reverse
  | bound + 1, name => do
    let token ← advance
    if token.isEmpty then
      if name.isEmpty then refuse .missingGroupName
      else refuseBefore (.unterminatedName terminator) name.length
    else if token == [terminator] then
      if name.isEmpty then refuseBefore .missingGroupName 1 else return name.reverse
    else readUntil terminator bound (token.reverse ++ name)

/-- Reads a group name up to its terminator. -/
def readName (terminator : Char) (bound : Nat) : Reader String := do
  let name ← readUntil terminator bound []
  let text := String.ofList name
  if isName name then return text else refuseBefore (.badGroupName text) (name.length + 1)

/-- The group of a name that ends before the last character read. -/
def groupNamed (name : String) : Reader Nat := do
  match (← get).names.lookup name with
  | none => refuseBefore (.unknownGroupName name) (name.length + 1)
  | some index => return index

/-- The bound that group numbers stay below. -/
def groupLimit : Nat := 1073741823

/-- Reads which group a choice depends on, a name or a number; whether there is a group
of that number is checked at the end of the pattern. -/
def readCondition (bound : Nat) : Reader Nat := do
  let name ← readUntil ')' bound []
  let text := String.ofList name
  let index ←
    if isName name then groupNamed text
    else
      match readInteger? (trimBlank name) with
      | some (.ofNat 0) => refuseBefore .badGroupNumber (name.length + 1)
      | some (.ofNat index) =>
        if groupLimit ≤ index then refuseBefore (.noSuchGroup index) (name.length + 1)
        else
          modify fun p =>
            { p with asked := p.asked ++ [(index, p.index - name.length - 1)] }
          pure index
      | _ => refuseBefore (.badGroupName text) (name.length + 1)
  checkBehind index
  return index

/-- Skips a comment group; `start` is where the group began. -/
def skipComment (start : Nat) : Nat → Reader Unit
  | 0 => return
  | bound + 1 => do
    let token ← advance
    if token.isEmpty then refuseAt .unterminatedComment start
    else if token != [')'] then skipComment start bound

/-- Skips to the end of the line. -/
def skipLine : Nat → Reader Unit
  | 0 => return
  | bound + 1 => do
    let token ← advance
    if !token.isEmpty && token != ['\n'] then skipLine bound

/-- Whether a character is the letter of an option. -/
def isOptionLetter (c : Char) : Bool :=
  c == 'u' || c == 'L' || (({} : Options).add? c).isSome

/-- Refuses what stands in place of the letter of an option. -/
def refuseLetter {α : Type} (missing : Defect) (token : List Char) : Reader α :=
  match token with
  | [] => refuse missing
  | [c] =>
    let letter := isWord c && !isDigitSign c && c != '_'
    refuseBefore (if letter then .unknownOption else missing) 1
  | escape => refuseBefore missing escape.length

/-- Reads the letters of options that are switched on, from a given letter on, and the
mark behind them. -/
def readLettersOn : Nat → Char → Scope → Reader (Scope × Char)
  | 0, _, scope => return (scope, ')')
  | bound + 1, letter, scope => do
    if letter == 'L' then refuse .localeOption
    let scope :=
      { scope with on := (scope.on.add? letter).getD scope.on, full := scope.full || letter == 'u' }
    if scope.on.ascii && scope.full then refuse .clashingClasses
    match ← advance with
    | [c] =>
      if [')', '-', ':'].contains c then return (scope, c)
      else if isOptionLetter c then readLettersOn bound c scope
      else refuseLetter .missingOptionEnd [c]
    | token => refuseLetter .missingOptionEnd token

/-- Reads the letters of options that are switched off, from a given letter on, and the
colon behind them. -/
def readLettersOff : Nat → Char → Options → Reader Options
  | 0, _, off => return off
  | bound + 1, letter, off => do
    if letter == 'a' || letter == 'u' || letter == 'L' then refuse .fixedOption
    let off := (off.add? letter).getD off
    match ← advance with
    | [':'] => return off
    | [c] =>
      if isOptionLetter c then readLettersOff bound c off else refuseLetter .missingColon [c]
    | token => refuseLetter .missingColon token

/-- Reads an option group from its first character on. Options for the whole pattern are
switched on at once, and those for a part of it are returned. -/
def readOptions (bound : Nat) (first : Char) : Reader (Option Scope) := do
  let (scope, mark) ← if first == '-' then pure ({}, '-') else readLettersOn bound first {}
  if mark == ')' then
    modify fun p =>
      { p with
        options := { scope with full := false }.within p.options, full := p.full || scope.full }
    return none
  else if mark == ':' then return some scope
  else
    match ← advance with
    | [c] =>
      if isOptionLetter c then
        let off ← readLettersOff bound c {}
        if scope.on.meets off then refuseBefore .optionOnAndOff 1
        else return some { scope with off }
      else refuseLetter .missingOption [c]
    | token => refuseLetter .missingOption token

/-- Begins a capturing group. -/
def beginGroup (name : Option String) : Reader Nat := do
  let p ← get
  let index := p.groupCount + 1
  match name with
  | none => pure ()
  | some name =>
    match p.names.lookup name with
    | some earlier => refuseBefore (.groupRedefined name index earlier) (name.length + 1)
    | none => pure ()
  let names := match name with
    | some name => (name, index) :: p.names
    | none => p.names
  set { p with groupCount := index, names }
  return index

/-- Ends a group that began at `start`. -/
def closeGroup (start : Nat) : Reader Unit := do
  if !(← skip ')') then refuseAt .missingClose start

/-- What an opening parenthesis begins. -/
inductive GroupKind where
  | capturing (name : Option String)
  | plain
  | atomic
  | look (behind wanted : Bool)
  | scoped (scope : Scope)
  | conditional (index : Nat)
  | done (item : Option Regex)

/-- Reads the mark of a group after its parenthesis; `first` says that nothing has
been read before the group. -/
def groupKind (start : Nat) (first : Bool) : Reader GroupKind := do
  let bound := (← get).rest.length + 1
  if !(← skip '?') then return .capturing none
  match ← advance with
  | [] => refuse .endOfPattern
  | [':'] => return .plain
  | ['>'] => return .atomic
  | ['='] => return .look false true
  | ['!'] => return .look false false
  | ['<'] =>
    match ← advance with
    | [] => refuse .endOfPattern
    | ['='] => return .look true true
    | ['!'] => return .look true false
    | token => refuseBefore (.unknownExtension ("<" ++ String.ofList token)) (token.length + 2)
  | ['('] => return .conditional (← readCondition bound)
  | ['#'] =>
    skipComment start bound
    return .done none
  | ['P'] =>
    if ← skip '<' then return .capturing (some (← readName '>' bound))
    else if ← skip '=' then
      let name ← readName ')' bound
      let index ← groupNamed name
      return .done (some (← backreference index 0 (name.length + 1)))
    else
      match ← advance with
      | [] => refuse .endOfPattern
      | token => refuseBefore (.unknownExtension ("P" ++ String.ofList token)) (token.length + 2)
  | token =>
    match token with
    | [c] =>
      if c == '-' || isOptionLetter c then
        match ← readOptions bound c with
        | some scope => return .scoped scope
        | none => if first then return .done none else refuseAt .lateOptions start
      else refuseBefore (.unknownExtension (String.ofList token)) (token.length + 1)
    | _ => refuseBefore (.unknownExtension (String.ofList token)) (token.length + 1)

end DataContract.Pattern
