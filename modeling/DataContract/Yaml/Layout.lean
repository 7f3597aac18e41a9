/-
# From characters to tokens

Blocks are told by indentation, and a key is told by the colon after it. So a
scalar or a flow collection at a place where a key may stand is a *candidate*: if
a colon follows on the same line and within 1024 characters, a key token is put in
front of it, and in front of that the beginning of a block if it is the first key
of one. There is at most one candidate in each of the nested flow collections.

Reading is lazy: a token is handed out only when it cannot become a key any more,
and characters are read only for tokens that are asked for. `TokenStream` keeps
what can be observed of that: the tokens that are handed out, and the error that is
met by asking for one more.
-/

import DataContract.Yaml.BlockScalar
import DataContract.Yaml.PlainScalar
import DataContract.Yaml.Token

set_option autoImplicit false

namespace DataContract.Yaml

/-- A place where a key may have begun: the number of its first token, and whether
it has to be a key because it begins a line of a block of keys. -/
structure Candidate where
  token : Nat
  required : Bool
  position : Position

/-- How far the reading of tokens has come. The tokens stand the latest first;
`indents` are the columns of the blocks around the innermost one, whose column is
`indent`, or -1 outside of all blocks. A candidate stands under the number of flow
collections around it. -/
structure Layout where
  cursor : Cursor
  tokens : List Token
  count : Nat
  flow : Nat
  indent : Int
  indents : List Int
  keyAllowed : Bool
  candidates : List (Nat × Candidate)
  finished : Bool

namespace Layout

/-- Before the first token. -/
def start (cs : List Char) : Layout :=
  { cursor := Cursor.start cs, tokens := [], count := 0, flow := 0, indent := -1, indents := [],
    keyAllowed := true, candidates := [], finished := false }

/-- Whether no flow collection is open. -/
def inBlock (l : Layout) : Bool := l.flow == 0

/-- The column of the cursor. -/
def column (l : Layout) : Nat := l.cursor.column

/-- Adds a token. -/
def push (l : Layout) (t : Token) : Layout :=
  { l with tokens := t :: l.tokens, count := l.count + 1 }

/-- Puts a token in front of the token with a number. -/
def insertAt (l : Layout) (number : Nat) (t : Token) : Layout :=
  { l with tokens := l.tokens.insertIdx (l.count - number) t, count := l.count + 1 }

/-- Adds a token of some characters. -/
def take (l : Layout) (t : Token) (characters : Nat) : Layout :=
  { l.push t with cursor := l.cursor.advance characters }

/-- Whether a candidate cannot be followed by its colon any more. -/
def isStale (l : Layout) (c : Candidate) : Bool :=
  c.position.line != l.cursor.position.line ||
    1024 < l.cursor.position.index - c.position.index

/-- Drops the candidates that are too far back. -/
def dropStale (l : Layout) : Except Error Layout :=
  if l.candidates.any fun (_, c) => l.isStale c && c.required then .error .tokens
  else .ok { l with candidates := l.candidates.filter fun (_, c) => !l.isStale c }

/-- Drops the candidate of the innermost flow collection. -/
def dropCandidate (l : Layout) : Except Error Layout :=
  match l.candidates.lookup l.flow with
  | none => .ok l
  | some c =>
    if c.required then .error .tokens
    else .ok { l with candidates := l.candidates.filter (·.1 != l.flow) }

/-- Takes the next token for a candidate, where a key may stand. -/
def addCandidate (l : Layout) : Except Error Layout :=
  if l.keyAllowed then do
    let required := l.inBlock && l.indent == l.column
    let l ← l.dropCandidate
    return { l with
      candidates := (l.flow, ⟨l.count, required, l.cursor.position⟩) :: l.candidates }
  else .ok l

/-- Closes the blocks that are indented deeper than a column. -/
def closeBlocks (column : Int) : List Int → Layout → Layout
  | outer :: rest, l =>
    if column < l.indent then
      closeBlocks column rest { l.push .blockEnd with indent := outer, indents := rest }
    else l
  | [], l => l

/-- Closes the blocks that end before a column; flow collections have none. -/
def unwind (l : Layout) (column : Int) : Layout :=
  if l.inBlock then closeBlocks column l.indents l else l

/-- Opens a block at a column unless it is that of the innermost block. -/
def opensBlock (l : Layout) (column : Nat) : Bool := l.indent < column

/-- Opens a block at a column. -/
def openBlock (l : Layout) (column : Nat) : Layout :=
  { l with indent := column, indents := l.indent :: l.indents }

/-- Opens a block at the cursor if an entry there is the first of its block. -/
def beginEntry (l : Layout) (first : Token) : Except Error Layout :=
  if l.inBlock then
    if !l.keyAllowed then .error .tokens
    else if l.opensBlock l.column then .ok ((l.openBlock l.column).push first)
    else .ok l
  else .ok l

/-- Skips spaces, comments and empty lines, in at most `bound` lines. After a line
break in a block a key may stand. -/
def skipBlank : Nat → Layout → Layout
  | 0, l => l
  | bound + 1, l =>
    let cursor := l.cursor.skipSpaces.skipComment
    if cursor.next?.any isBreak then
      skipBlank bound
        { l with cursor := cursor.advance 1, keyAllowed := l.keyAllowed || l.inBlock }
    else { l with cursor }

/-- Skips what stands in front of the next token. -/
def skipToToken (l : Layout) : Layout :=
  let marked := l.cursor.position.index == 0 && l.cursor.next? == some '\uFEFF'
  let l := if marked then { l with cursor := l.cursor.advance 1 } else l
  skipBlank (l.cursor.rest.length + 1) l

/-- Ends the stream. -/
def readEnd (l : Layout) : Except Error Layout := do
  let l ← (l.unwind (-1)).dropCandidate
  return { l.push .streamEnd with keyAllowed := false, candidates := [], finished := true }

/-- Reads a directive. -/
def readDirective (l : Layout) : Except Error Layout := do
  let l ← (l.unwind (-1)).dropCandidate
  let (t, cursor) ← l.cursor.readDirective
  return { l.push t with cursor, keyAllowed := false }

/-- Reads the mark between documents. -/
def readSeparator (l : Layout) (t : Token) : Except Error Layout := do
  let l ← (l.unwind (-1)).dropCandidate
  return { l.take t 3 with keyAllowed := false }

/-- Opens a flow collection, which may be a key itself. -/
def openFlow (l : Layout) (t : Token) : Except Error Layout := do
  let l ← l.addCandidate
  return { l.take t 1 with flow := l.flow + 1, keyAllowed := true }

/-- Closes a flow collection. -/
def closeFlow (l : Layout) (t : Token) : Except Error Layout := do
  let l ← l.dropCandidate
  return { l.take t 1 with flow := l.flow - 1, keyAllowed := false }

/-- Reads the comma of a flow collection. -/
def readComma (l : Layout) : Except Error Layout := do
  let l ← ({ l with keyAllowed := true } : Layout).dropCandidate
  return l.take .flowEntry 1

/-- Reads the dash of an entry. -/
def readDash (l : Layout) : Except Error Layout := do
  let l ← l.beginEntry .blockSequenceStart
  let l ← ({ l with keyAllowed := true } : Layout).dropCandidate
  return l.take .blockEntry 1

/-- Reads the question mark of a key. -/
def readQuestion (l : Layout) : Except Error Layout := do
  let l ← l.beginEntry .blockMappingStart
  let l ← ({ l with keyAllowed := l.inBlock } : Layout).dropCandidate
  return l.take .key 1

/-- Makes a key of a candidate. -/
def confirm (l : Layout) (c : Candidate) : Layout :=
  let l := { l with candidates := l.candidates.filter (·.1 != l.flow), keyAllowed := false }
  let l := l.insertAt c.token .key
  if l.inBlock && l.opensBlock c.position.column then
    (l.openBlock c.position.column).insertAt c.token .blockMappingStart
  else l

/-- Reads the colon of a value. -/
def readColon (l : Layout) : Except Error Layout :=
  match l.candidates.lookup l.flow with
  | some c => .ok ((l.confirm c).take .value 1)
  | none => do
    let l ← l.beginEntry .blockMappingStart
    let l ← ({ l with keyAllowed := l.inBlock } : Layout).dropCandidate
    return l.take .value 1

/-- Reads an anchor, an alias or a tag. -/
def readMark (l : Layout) (read : Cursor → Except Error (Token × Cursor)) :
    Except Error Layout := do
  let l ← l.addCandidate
  let (t, cursor) ← read l.cursor
  return { l.push t with cursor, keyAllowed := false }

/-- Reads the name of an anchor or alias as a token. -/
def anchorToken (make : String → Token) (c : Cursor) : Except Error (Token × Cursor) :=
  c.readAnchor.map fun (name, after) => (make name, after)

/-- The column from which lines belong to the innermost block. -/
def contentColumn (l : Layout) : Nat := (l.indent + 1).toNat

/-- Reads a block scalar. -/
def readBlockScalar (l : Layout) (folded : Bool) : Except Error Layout := do
  let l ← ({ l with keyAllowed := true } : Layout).dropCandidate
  let (text, cursor) ← readBlock folded l.contentColumn l.cursor
  return { l.push (.scalar text false) with cursor }

/-- Reads a quoted scalar. -/
def readQuotedScalar (l : Layout) (double : Bool) : Except Error Layout := do
  let l ← l.addCandidate
  let (text, cursor) ← readQuoted double l.cursor
  return { l.push (.scalar text false) with cursor, keyAllowed := false }

/-- Reads a plain scalar. -/
def readPlainScalar (l : Layout) : Except Error Layout := do
  let l ← l.addCandidate
  let s := readPlain (!l.inBlock) l.contentColumn l.cursor
  return { l.push (.scalar s.text true) with cursor := s.cursor, keyAllowed := s.brokeLine }

/-- Whether a plain scalar can begin with a character that is followed by `rest`. -/
def beginsPlain (flow : Bool) (c : Char) (rest : List Char) : Bool :=
  !(isSpace c || isBreak c || "-?:,[]\x7b\x7d#&*!|>\x27\x22%@\x60".toList.contains c) ||
    (!endsWord rest && (c == '-' || (!flow && (c == '?' || c == ':'))))

/-- Reads the token that begins with a character. -/
def readTokenAt (l : Layout) (c : Char) (rest : List Char) : Except Error Layout :=
  let atMargin := l.column == 0
  if c == '%' && atMargin then l.readDirective
  else if c == '-' && atMargin && startsSeparator (c :: rest) then l.readSeparator .documentStart
  else if c == '.' && atMargin && startsSeparator (c :: rest) then l.readSeparator .documentEnd
  else if c == '[' then l.openFlow .flowSequenceStart
  else if c == '\x7b' then l.openFlow .flowMappingStart
  else if c == ']' then l.closeFlow .flowSequenceEnd
  else if c == '\x7d' then l.closeFlow .flowMappingEnd
  else if c == ',' then l.readComma
  else if c == '-' && endsWord rest then l.readDash
  else if c == '?' && (!l.inBlock || endsWord rest) then l.readQuestion
  else if c == ':' && (!l.inBlock || endsWord rest) then l.readColon
  else if c == '*' then l.readMark (anchorToken .alias)
  else if c == '&' then l.readMark (anchorToken .anchor)
  else if c == '!' then l.readMark Cursor.readTag
  else if c == '|' && l.inBlock then l.readBlockScalar false
  else if c == '>' && l.inBlock then l.readBlockScalar true
  else if c == '\x27' then l.readQuotedScalar false
  else if c == '\x22' then l.readQuotedScalar true
  else if beginsPlain (!l.inBlock) c rest then l.readPlainScalar
  else .error .tokens

/-- Reads on by one token, with the tokens for the blocks that begin or end there. -/
def advance (l : Layout) : Except Error Layout := do
  let l ← l.skipToToken.dropStale
  let l := l.unwind l.column
  let l ← match l.cursor.rest with
    | [] => l.readEnd
    | c :: rest => l.readTokenAt c rest
  l.dropStale

/-- The number of the first token that is not handed out yet. -/
def firstPending (l : Layout) : Nat := (l.candidates.map (·.2.token)).foldl min l.count

end Layout

/-- The tokens of a document, and the error that comes after them. -/
structure TokenStream where
  tokens : List Token
  failure : Error

namespace TokenStream

/-- Reads tokens until the stream ends or an error stops it, at most `bound` times. -/
def ofLayout : Nat → Layout → TokenStream
  | 0, l => ⟨l.tokens.reverse, .tokens⟩
  | bound + 1, l =>
    match l.advance with
    | .error e => ⟨l.tokens.reverse.take l.firstPending, e⟩
    | .ok l => if l.finished then ⟨l.tokens.reverse, .tokens⟩ else ofLayout bound l

/-- The tokens of a document. Every step but the last takes a character at least. -/
def ofChars (cs : List Char) : TokenStream := ofLayout (cs.length + 1) (Layout.start cs)

end TokenStream

end DataContract.Yaml
