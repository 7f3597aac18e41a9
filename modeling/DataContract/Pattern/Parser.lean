/-
# From text to pattern

A pattern is a choice of sequences, and an item of a sequence may be repeated.

Groups nest, so reading is bounded by the length of the pattern: every group and
every repetition takes at least one character.
-/

import DataContract.Pattern.Group

set_option autoImplicit false

namespace DataContract.Pattern

open Text

/-- The bound that repetition counts stay below. -/
def countLimit : Nat := 4294967295

/-- Reads the counts of a repetition in braces, after the opening brace, which
`here` is the position after. Without a closing brace the opening one stands for
itself and nothing is taken. -/
def readCounts (here : Nat) : Reader (Option (Nat × Option Nat)) := do
  let before ← get
  let digits ← takeWhile isAsciiDigit before.rest.length
  let upper ←
    if ← skip ',' then takeWhile isAsciiDigit before.rest.length else pure digits
  if !(← skip '}') then
    set before
    return none
  else
    let least := asciiNat digits
    let most := asciiNat upper
    if !digits.isEmpty && countLimit ≤ least then throw .countTooLarge
    else if upper.isEmpty then return some (least, none)
    else if countLimit ≤ most then throw .countTooLarge
    else if most < least then refuseAt .reversedRepeat here
    else return some (least, some most)

/-- Repeats the last of the items read so far, which stand last first. -/
def repeatLast (here : Nat) (counts : Nat × Option Nat) : List Regex → Reader (List Regex)
  | [] => refuseAt .nothingToRepeat (here - 1)
  | .anchor _ :: _ => refuseAt .nothingToRepeat (here - 1)
  | .repeated .. :: _ => refuseAt .multipleRepeat (here - 1)
  | last :: items => do
    let item (prefers : Preference) : Regex := .repeated ⟨counts.1, counts.2, prefers⟩ last
    if ← skip '?' then return item .less :: items
    else if ← skip '+' then return item .keep :: items
    else return item .more :: items

mutual

/-- Reads the alternatives up to the end of the group or pattern. -/
def readChoice : Nat → Bool → Reader Regex
  | 0, _ => return .empty
  | bound + 1, top => do
    let first ← readSequence bound top []
    readAlternatives bound [first]

/-- Reads further alternatives; `items` holds those read so far, last first. -/
def readAlternatives : Nat → List Regex → Reader Regex
  | 0, items => return Regex.choice items.reverse
  | bound + 1, items => do
    if ← skip '|' then
      let next ← readSequence bound false []
      readAlternatives bound (next :: items)
    else return Regex.choice items.reverse

/-- Reads the items of one alternative; `items` holds those read so far, last
first, and `top` says that this is the first alternative of the pattern. -/
def readSequence : Nat → Bool → List Regex → Reader Regex
  | 0, _, items => return Regex.sequence items.reverse
  | bound + 1, top, items => do
    match ← peek with
    | [] | ['|'] | [')'] => return Regex.sequence items.reverse
    | _ =>
      let token ← advance
      let here := (← get).index
      let verbose := (← get).options.verbose
      match token with
      | ['\\', c] => readSequence bound top ((← escape c) :: items)
      | ['['] =>
        let negated ← skip '^'
        let members ← readClass (here - 1) (bound + 1) []
        readSequence bound top (.set negated members :: items)
      | ['.'] => readSequence bound top (.any :: items)
      | ['^'] => readSequence bound top (.anchor .lineStart :: items)
      | ['$'] => readSequence bound top (.anchor .lineEnd :: items)
      | ['*'] => readSequence bound top (← repeatLast here (0, none) items)
      | ['+'] => readSequence bound top (← repeatLast here (1, none) items)
      | ['?'] => readSequence bound top (← repeatLast here (0, some 1) items)
      | ['\x7b'] =>
        if ← sees '\x7d' then readSequence bound top (.char '\x7b'.toNat :: items)
        else
          match ← readCounts here with
          | none => readSequence bound top (.char '\x7b'.toNat :: items)
          | some counts => readSequence bound top (← repeatLast here counts items)
      | ['('] => do
        match ← readGroup bound (here - 1) (top && items.isEmpty) with
        | none => readSequence bound top items
        | some item => readSequence bound top (item :: items)
      | [c] =>
        if verbose && [' ', '\t', '\n', '\r', '\x0b', '\x0c'].contains c then
          readSequence bound top items
        else if verbose && c == '#' then
          skipLine bound
          readSequence bound top items
        else readSequence bound top (.char c.toNat :: items)
      | _ => readSequence bound top items

/-- Reads a group that began at `start`, after its parenthesis. Option groups and
comments leave no item. -/
def readGroup : Nat → Nat → Bool → Reader (Option Regex)
  | 0, _, _ => return none
  | bound + 1, start, first => do
    match ← groupKind start first with
    | .done item => return item
    | .plain =>
      let body ← readChoice bound false
      closeGroup start
      return some (.group none body)
    | .atomic =>
      let body ← readChoice bound false
      closeGroup start
      return some (.atomic body)
    | .look false wanted =>
      let body ← readChoice bound false
      closeGroup start
      return some (.look 0 wanted body)
    | .look true wanted =>
      let outer := (← get).groupsBehind
      modify fun p => { p with groupsBehind := outer <|> some p.groupCount }
      let body ← readChoice bound false
      modify fun p => { p with groupsBehind := outer }
      closeGroup start
      let width := body.width (← get).widths
      modify fun p =>
        { p with variableBehind := p.variableBehind || width.least != width.most }
      return some (.look width.least wanted body)
    | .scoped scope =>
      let outer := (← get).options
      modify fun p => { p with options := scope.within outer }
      let body ← readChoice bound false
      modify fun p => { p with options := outer }
      closeGroup start
      return some (.scoped scope body)
    | .conditional index =>
      let present ← readSequence bound false []
      let absent ← if ← skip '|' then readSequence bound false [] else pure .empty
      if ← sees '|' then refuse .furtherBranch
      closeGroup start
      return some (.ifGroup index present absent)
    | .capturing name =>
      let index ← beginGroup name
      let body ← readChoice bound false
      closeGroup start
      modify fun p => { p with widths := (index, body.width p.widths) :: p.widths }
      return some (.group (some index) body)

end

/-- Reads a whole pattern. -/
def readPattern : Reader Regex := do
  lookAhead
  let tree ← readChoice (4 * (← get).rest.length + 4) true
  let p ← get
  if p.options.ascii && p.full then throw .clashingOptions
  if !(← peek).isEmpty then refuse .unbalanced
  match p.asked.find? (p.groupCount < ·.1) with
  | some (index, position) => refuseAt (.noSuchGroup index) position
  | none => if p.variableBehind then refuse .variableLookBehind else return tree

/-- The tree of a pattern, and its options with those that it switches on. -/
def parse (source : String) (options : Options) : Except Fault (Regex × Options) :=
  (readPattern.run { rest := source.toList, options }).map fun (tree, progress) =>
    (tree, progress.options)

end DataContract.Pattern
