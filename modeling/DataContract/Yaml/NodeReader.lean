/-
# From tokens to nodes

A document is read by recursive descent over its tokens, looking one token ahead.
Tokens are asked for in order and only as far as they are needed, so the error
that follows the tokens is met where the reader gets there.

The reader goes down at most once for each token it takes, so it is bounded by the
number of tokens.
-/

import DataContract.Yaml.Layout
import DataContract.Yaml.Node
import DataContract.Yaml.Scalar

set_option autoImplicit false

namespace DataContract.Yaml

/-- What is still to be read, the tag handles of the document, the nodes with an anchor
so far, and the next free mark. -/
structure Reading where
  stream : TokenStream
  handles : List (String × String)
  anchors : List (String × Node)
  marks : Nat

/-- A reader of nodes. -/
abbrev NodeReader := StateT Reading (Except Error)

/-- Where a node stands: in a block or a flow collection, whether it may be a sequence
that is not indented, and whether it stands inside a node with an anchor. -/
structure Place where
  block : Bool
  indentless : Bool
  shared : Bool

/-- The tag handles that every document has. -/
def defaultHandles : List (String × String) := [("!", "!"), ("!!", Tag.namespaceText)]

namespace NodeReader

/-- The next token. -/
def peek : NodeReader Token := do
  let s ← get
  match s.stream.tokens with
  | t :: _ => return t
  | [] => throw s.stream.failure

/-- Takes the next token. -/
def drop : NodeReader Unit :=
  modify fun s => { s with stream := { s.stream with tokens := s.stream.tokens.tail } }

/-- Takes the next token if it is the given one. -/
def skip (t : Token) : NodeReader Bool := do
  if (← peek) == t then
    drop
    return true
  else return false

/-- Takes the next token, which has to be the given one. -/
def expect (t : Token) : NodeReader Unit := do
  if !(← skip t) then throw .grammar

/-- A new mark. -/
def newMark : NodeReader Nat := do
  let s ← get
  set { s with marks := s.marks + 1 }
  return s.marks

/-- A mark for a collection that can be reached in several ways. -/
def markIf (shared : Bool) : NodeReader (Option Nat) := do
  if shared then return some (← newMark) else return none

/-- Gives a name to a node. -/
def define (name : String) (node : Node) : NodeReader Unit :=
  modify fun s => { s with anchors := (name, node) :: s.anchors }

/-- The node with a name. -/
def resolve (name : String) : NodeReader Node := do
  match (← get).anchors.lookup name with
  | some node => return node
  | none => throw .structural

/-- Refuses an anchor that is already in use. -/
def checkAnchor (anchor : Option String) : NodeReader Unit := do
  match anchor with
  | none => return
  | some name => if ((← get).anchors.lookup name).isSome then throw .structural

/-- Gives a name to a node if it has one. -/
def defineIf (anchor : Option String) (node : Node) : NodeReader Unit :=
  match anchor with
  | none => return
  | some name => define name node

/-- The full name of a tag. -/
def tagName (handle : Option String) (suffix : String) : NodeReader String := do
  match handle with
  | none => return suffix
  | some handle =>
    match (← get).handles.lookup handle with
    | some expansion => return expansion ++ suffix
    | none => throw .grammar

/-- Reads the tag of a node. -/
def readTag : NodeReader (Option (Option String × String)) := do
  match ← peek with
  | .tag handle suffix =>
    drop
    return some (handle, suffix)
  | _ => return none

/-- Reads the anchor of a node. -/
def readAnchor : NodeReader (Option String) := do
  match ← peek with
  | .anchor name =>
    drop
    return some name
  | _ => return none

/-- Reads the anchor and the tag of a node, which may come in either order. -/
def readProperties : NodeReader (Option String × Option String) := do
  let first ← readAnchor
  let tag ← readTag
  let anchor ← if first.isSome || tag.isNone then pure first else readAnchor
  match tag with
  | none => return (anchor, none)
  | some (handle, suffix) => return (anchor, some (← tagName handle suffix))

/-- The tag of a scalar: a mark without a name lets the text decide. -/
def scalarTag (tag : Option String) (text : String) (plain : Bool) : Tag :=
  match tag with
  | some name => if name == "!" then Tag.ofPlain text else Tag.ofName name
  | none => if plain then Tag.ofPlain text else .text

/-- The tag of a collection. -/
def collectionTag (tag : Option String) (fallback : Tag) : Tag :=
  match tag with
  | some name => if name == "!" then fallback else Tag.ofName name
  | none => fallback

/-- Takes note that the collection with a mark is being read: its name stands for the
collection around. -/
def defineEnclosing (anchor : Option String) (mark : Option Nat) : NodeReader Unit :=
  match mark with
  | none => return
  | some n => defineIf anchor (.enclosing n)

/-- Reads a collection. -/
def collect {α : Type} (anchor : Option String) (place : Place)
    (content : Bool → NodeReader α) (make : Option Nat → α → Node) : NodeReader Node := do
  checkAnchor anchor
  let shared := place.shared || anchor.isSome
  let mark ← markIf shared
  defineEnclosing anchor mark
  let node := make mark (← content shared)
  defineIf anchor node
  return node

/-- A place in a block. -/
def blockPlace (shared : Bool) : Place := ⟨true, false, shared⟩

/-- A place in a block of keys, where a sequence need not be indented. -/
def entryPlace (shared : Bool) : Place := ⟨true, true, shared⟩

/-- A place in a flow collection. -/
def flowPlace (shared : Bool) : Place := ⟨false, false, shared⟩

/-- Reads what one of the given tokens shows to be left out as an empty scalar. -/
def unlessNext (ends : List Token) (read : NodeReader Node) : NodeReader Node := do
  if ends.contains (← peek) then return Node.empty else read

/-- Reads the value after a colon; without a colon it is empty. -/
def readValue (ends : List Token) (read : NodeReader Node) : NodeReader Node := do
  if ← skip .value then unlessNext ends read else return Node.empty

/-- The tokens that end a key or value in a block. -/
def entryEnds : List Token := [.key, .value, .blockEnd]

mutual

/-- Reads a node. -/
def readNode : Nat → Place → NodeReader Node
  | 0, _ => throw .grammar
  | bound + 1, place => do
    match ← peek with
    | .alias name =>
      drop
      resolve name
    | _ =>
      let (anchor, tag) ← readProperties
      let sequence (items : Bool → NodeReader (List Node)) :=
        collect anchor place items fun mark => .sequence mark (collectionTag tag .sequence)
      let mapping (entries : Bool → NodeReader (List (Node × Node))) :=
        collect anchor place entries fun mark => Node.ofEntries mark (collectionTag tag .mapping)
      let leaf (node : Node) : NodeReader Node := do
        checkAnchor anchor
        defineIf anchor node
        return node
      let nothing : NodeReader Node :=
        if anchor.isSome || tag.isSome then leaf (.scalar (scalarTag tag "" true) "")
        else throw .grammar
      match ← peek with
      | .scalar text plain =>
        drop
        leaf (.scalar (scalarTag tag text plain) text)
      | .flowSequenceStart =>
        drop
        sequence (readFlowItems bound true)
      | .flowMappingStart =>
        drop
        mapping (readFlowEntries bound true)
      | .blockEntry => if place.indentless then sequence (readIndentlessItems bound) else nothing
      | .blockSequenceStart =>
        if place.block then
          drop
          sequence (readBlockItems bound)
        else nothing
      | .blockMappingStart =>
        if place.block then
          drop
          mapping (readBlockEntries bound)
        else nothing
      | _ => nothing

/-- Reads the items of an indented sequence. -/
def readBlockItems : Nat → Bool → NodeReader (List Node)
  | 0, _ => throw .grammar
  | bound + 1, shared => do
    if ← skip .blockEntry then
      let item ← unlessNext [.blockEntry, .blockEnd] (readNode bound (blockPlace shared))
      return item :: (← readBlockItems bound shared)
    else
      expect .blockEnd
      return []

/-- Reads the items of a sequence that is not indented. -/
def readIndentlessItems : Nat → Bool → NodeReader (List Node)
  | 0, _ => throw .grammar
  | bound + 1, shared => do
    if ← skip .blockEntry then
      let item ← unlessNext (.blockEntry :: entryEnds) (readNode bound (blockPlace shared))
      return item :: (← readIndentlessItems bound shared)
    else return []

/-- Reads the entries of a block of keys. -/
def readBlockEntries : Nat → Bool → NodeReader (List (Node × Node))
  | 0, _ => throw .grammar
  | bound + 1, shared => do
    if ← skip .key then
      let key ← unlessNext entryEnds (readNode bound (entryPlace shared))
      let value ← readValue entryEnds (readNode bound (entryPlace shared))
      return (key, value) :: (← readBlockEntries bound shared)
    else
      expect .blockEnd
      return []

/-- Reads the items of a flow sequence; a key among them begins a mapping of one
entry. -/
def readFlowItems : Nat → Bool → Bool → NodeReader (List Node)
  | 0, _, _ => throw .grammar
  | bound + 1, first, shared => do
    let ends : List Token := [.flowEntry, .flowSequenceEnd]
    if ← skip .flowSequenceEnd then return []
    if !first then expect .flowEntry
    if ← skip .key then
      let mark ← markIf shared
      let key ← unlessNext (.value :: ends) (readNode bound (flowPlace shared))
      let value ← readValue ends (readNode bound (flowPlace shared))
      return Node.ofEntries mark .mapping [(key, value)] :: (← readFlowItems bound false shared)
    else if ← skip .flowSequenceEnd then return []
    else
      let item ← readNode bound (flowPlace shared)
      return item :: (← readFlowItems bound false shared)

/-- Reads the entries of a flow mapping; what has no colon is a key without a value. -/
def readFlowEntries : Nat → Bool → Bool → NodeReader (List (Node × Node))
  | 0, _, _ => throw .grammar
  | bound + 1, first, shared => do
    let ends : List Token := [.flowEntry, .flowMappingEnd]
    if ← skip .flowMappingEnd then return []
    if !first then expect .flowEntry
    if ← skip .key then
      let key ← unlessNext (.value :: ends) (readNode bound (flowPlace shared))
      let value ← readValue ends (readNode bound (flowPlace shared))
      return (key, value) :: (← readFlowEntries bound false shared)
    else if ← skip .flowMappingEnd then return []
    else
      let key ← readNode bound (flowPlace shared)
      return (key, Node.empty) :: (← readFlowEntries bound false shared)

end

/-- Takes the marks that end a document. -/
def skipDocumentEnds : Nat → NodeReader Unit
  | 0 => throw .grammar
  | bound + 1 => do
    if ← skip .documentEnd then skipDocumentEnds bound

/-- Takes note of a directive. The version may be given once and has to be 1. -/
def applyDirective (versionSeen : Bool) : Directive → NodeReader Bool
  | .version major _ => if versionSeen || major != 1 then throw .grammar else return true
  | .tagHandle handle expansion => do
    let s ← get
    if (s.handles.lookup handle).isSome then throw .grammar
    set { s with handles := (handle, expansion) :: s.handles }
    return versionSeen
  | .unknown => return versionSeen

/-- Reads the directives in front of a document. -/
def readDirectives : Nat → Bool → NodeReader Unit
  | 0, _ => throw .grammar
  | bound + 1, versionSeen => do
    match ← peek with
    | .directive d =>
      drop
      readDirectives bound (← applyDirective versionSeen d)
    | _ => return

/-- Reads the directives and the mark in front of a document, or finds the end of the
stream. The default handles are those that the directives leave open. -/
def beginDocument (bound : Nat) : NodeReader Bool := do
  skipDocumentEnds bound
  if (← peek) == .streamEnd then return false
  modify fun s => { s with handles := [] }
  readDirectives bound false
  expect .documentStart
  modify fun s => { s with handles := s.handles ++ defaultHandles }
  return true

/-- Reads the content of a document. -/
def readContent (bound : Nat) : NodeReader Node := do
  match ← peek with
  | .directive _ | .documentStart | .documentEnd | .streamEnd => return Node.empty
  | _ => readNode bound (blockPlace false)

/-- Reads the only document of a stream; there may be none. -/
def readSingle (bound : Nat) : NodeReader (Option Node) := do
  let node ← match ← peek with
    | .directive _ | .documentStart | .streamEnd =>
      if ← beginDocument bound then pure (some (← readContent bound)) else pure none
    | _ => pure (some (← readNode bound (blockPlace false)))
  if node.isNone then return none
  if ← beginDocument bound then throw .structural
  return node

end NodeReader

/-- The node of the only document in a stream of tokens. -/
def Node.ofTokens (stream : TokenStream) : Except Error (Option Node) :=
  let reading : Reading := ⟨stream, defaultHandles, [], 0⟩
  ((NodeReader.readSingle (2 * stream.tokens.length + 2)).run reading).map (·.1)

end DataContract.Yaml
