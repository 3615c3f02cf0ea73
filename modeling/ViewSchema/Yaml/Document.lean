import ViewSchema.Yaml.Lexer
import ViewSchema.Yaml.Node

/-! From the tokens of a YAML text to its value. A text holds at most one document. A value that is
expected and not there is an empty plain scalar. -/

namespace ViewSchema.Yaml

/-- What is left to read, and the names that anchors have so far. -/
structure Progress where
  tokens : List Token
  /-- The number of every name. -/
  names : List (String × Nat) := []

/-- A step that reads some tokens, unless they are none of its language. -/
abbrev Reading := StateT Progress Option

def peek : Reading (Option Token) := do return (← get).tokens.head?

def skip : Reading Unit := modify fun p => { p with tokens := p.tokens.tail }

/-- The next token is read, and it is the given one. -/
def demand (t : Token) : Reading Unit := do
  guard ((← peek) == some t)
  skip

/-- Whether the next token is one of the given ones. The end of the tokens is none of them. -/
def isNext (ts : List Token) : Reading Bool := do return (← peek).any ts.contains

/-- The number for a name. It is the number of different names so far, so that a name used again gets a
new number, which the next new name gets too. -/
def declare (name : String) : Reading Nat := do
  let p ← get
  let id := p.names.length
  set { p with names := (name, id) :: p.names.filter fun known => known.1 != name }
  return id

/-- The bytes that the handles of tags stand for. -/
abbrev Handles := List (String × Tag)

/-- The handles that need no declaration. -/
def defaultHandles : Handles :=
  [("!", "!".toUTF8.toList), ("!!", "tag:yaml.org,2002:".toUTF8.toList)]

def expandTag? (handles : Handles) (handle : String) (suffix : Tag) : Option Tag :=
  if handle.isEmpty then some suffix else do return (← handles.lookup handle) ++ suffix

/-- The number of an anchor, if one comes next. -/
def readAnchor : Reading (Option Nat) := do
  match ← peek with
  | some (.anchor name) => skip; return some (← declare name)
  | _ => return none

/-- A tag, if one comes next. -/
def readTag (handles : Handles) : Reading (Option Tag) := do
  match ← peek with
  | some (.tag handle suffix) => skip; return some (← expandTag? handles handle suffix)
  | _ => return none

/-- An anchor and a tag, in either order, as far as they are there. -/
def readProperties (handles : Handles) : Reading (Option Nat × Option Tag) := do
  match ← readAnchor with
  | some id => return (some id, ← readTag handles)
  | none =>
    let tag ← readTag handles
    return (← if tag.isSome then readAnchor else pure none, tag)

/-- Where a value stands, which decides how it may be written. -/
inductive Place where
  /-- In a flow collection, where only flow collections may stand. -/
  | flow
  /-- In a block sequence or at the top. -/
  | block
  /-- In a block mapping, where the entries of a sequence need no indentation. -/
  | entry
deriving DecidableEq

/-- The tag that keeps a scalar from being more than its text. On a written scalar it says nothing. -/
def plainTag : Tag := "!".toUTF8.toList

mutual

/-- A value. `fuel` bounds the number of steps, of which a token takes at most three. -/
def readNode (handles : Handles) : Nat → Place → Reading Node
  | 0, _ => failure
  | fuel + 1, place => do
    match ← peek with
    | some (.reference name) =>
      skip
      return .reference (← (← get).names.lookup name)
    | _ =>
      let (anchor, tag) ← readProperties handles
      let node ← readContent handles fuel place tag (anchor.isSome || tag.isSome)
      return match anchor with
        | some id => .anchored id node
        | none => node

/-- A value after its anchor and its tag; if it has one of them, nothing else has to follow. -/
def readContent (handles : Handles) : Nat → Place → Option Tag → (hasProperty : Bool) → Reading Node
  | 0, _, _, _ => failure
  | fuel + 1, place, tag, hasProperty => do
    match ← peek, place with
    | some .blockEntry, .entry => return .sequence (← readLevelItems handles fuel)
    | some (.scalar style text), _ => skip; return .scalar style (tag.filter (· != plainTag)) text
    | some .flowSequenceStart, _ => skip; return .sequence (← readFlowItems handles fuel true)
    | some .flowMappingStart, _ => skip; return .mapping (← readFlowEntries handles fuel true)
    | some .blockSequenceStart, .block | some .blockSequenceStart, .entry =>
      skip
      return .sequence (← readBlockItems handles fuel)
    | some .blockMappingStart, .block | some .blockMappingStart, .entry =>
      skip
      return .mapping (← readBlockEntries handles fuel)
    | _, _ => if hasProperty then return .scalar .plain tag "" else failure

/-- A value, or nothing if one of the given tokens comes next. -/
def readUnless (handles : Handles) : Nat → Place → (ends : List Token) → Reading Node
  | 0, _, _ => failure
  | fuel + 1, place, ends => do
    if ← isNext ends then return .nothing else readNode handles fuel place

/-- The value of a key, or nothing if there is no colon. -/
def readValue (handles : Handles) : Nat → Place → (ends : List Token) → Reading Node
  | 0, _, _ => failure
  | fuel + 1, place, ends => do
    if ← isNext [.value] then
      skip
      readUnless handles fuel place ends
    else return .nothing

def readBlockItems (handles : Handles) : Nat → Reading (List Node)
  | 0 => failure
  | fuel + 1 => do
    if ← isNext [.blockEntry] then
      skip
      let item ← readUnless handles fuel .block [.blockEntry, .blockEnd]
      return item :: (← readBlockItems handles fuel)
    else
      demand .blockEnd
      return []

/-- The items of a block sequence at the column of the key that it belongs to. -/
def readLevelItems (handles : Handles) : Nat → Reading (List Node)
  | 0 => failure
  | fuel + 1 => do
    if ← isNext [.blockEntry] then
      skip
      let item ← readUnless handles fuel .block [.blockEntry, .key, .value, .blockEnd]
      return item :: (← readLevelItems handles fuel)
    else return []

def readBlockEntries (handles : Handles) : Nat → Reading (List (Node × Node))
  | 0 => failure
  | fuel + 1 => do
    if ← isNext [.key] then
      skip
      let ends := [.key, .value, .blockEnd]
      let key ← readUnless handles fuel .entry ends
      let value ← readValue handles fuel .entry ends
      return (key, value) :: (← readBlockEntries handles fuel)
    else
      demand .blockEnd
      return []

/-- The items of a flow sequence, of which the first has no comma in front. -/
def readFlowItems (handles : Handles) : Nat → (isFirst : Bool) → Reading (List Node)
  | 0, _ => failure
  | fuel + 1, isFirst => do
    if ← isNext [.flowSequenceEnd] then
      skip
      return []
    else
      if !isFirst then demand .flowEntry
      if ← isNext [.key] then
        skip
        let entry ← readSingleEntry handles fuel
        return .mapping [entry] :: (← readFlowItems handles fuel false)
      else if ← isNext [.flowSequenceEnd] then
        skip
        return []
      else
        let item ← readNode handles fuel .flow
        return item :: (← readFlowItems handles fuel false)

/-- A mapping of one entry in a flow sequence. An empty key takes the token after it. -/
def readSingleEntry (handles : Handles) : Nat → Reading (Node × Node)
  | 0 => failure
  | fuel + 1 => do
    let key ←
      if ← isNext [.value, .flowEntry, .flowSequenceEnd] then
        skip
        pure Node.nothing
      else readNode handles fuel .flow
    return (key, ← readValue handles fuel .flow [.flowEntry, .flowSequenceEnd])

/-- The entries of a flow mapping, of which the first has no comma in front. -/
def readFlowEntries (handles : Handles) : Nat → (isFirst : Bool) → Reading (List (Node × Node))
  | 0, _ => failure
  | fuel + 1, isFirst => do
    if ← isNext [.flowMappingEnd] then
      skip
      return []
    else
      if !isFirst then demand .flowEntry
      if ← isNext [.key] then
        skip
        let key ← readUnless handles fuel .flow [.value, .flowEntry, .flowMappingEnd]
        let value ← readValue handles fuel .flow [.flowEntry, .flowMappingEnd]
        return (key, value) :: (← readFlowEntries handles fuel false)
      else if ← isNext [.flowMappingEnd] then
        skip
        return []
      else
        let key ← readNode handles fuel .flow
        return (key, .nothing) :: (← readFlowEntries handles fuel false)

end

/-- The directives in front, which are left out of the tokens, and the handles that they declare.
Nothing may be declared twice, and the version has to be known. -/
def readDirectives (versioned : Bool) (handles : Handles) : List Token → Option (Handles × List Token)
  | .version major minor :: rest =>
    if versioned || major ≠ 1 || (minor ≠ 1 && minor ≠ 2) then none
    else readDirectives true handles rest
  | .handle name start :: rest =>
    if (handles.lookup name).isSome then none
    else readDirectives versioned ((name, start) :: handles) rest
  | rest => some (handles, rest)

/-- Whether a document ends before a token or starts with it. -/
def Token.isBoundary : Token → Bool
  | .version .. | .handle .. | .documentStart | .documentEnd => true
  | _ => false

/-- The value at the front of a document's tokens. -/
def readRoot (handles : Handles) (ts : List Token) : Option (Node × List Token) := do
  let (root, p) ← (readNode handles (4 * ts.length + 4) .block).run ⟨ts, []⟩
  return (root, p.tokens)

/-- The value at the front of some tokens. After the mark of a document's start nothing has to follow. -/
def readDocument (ts : List Token) : Option (Node × List Token) := do
  match ← readDirectives false [] ts with
  | (handles, .documentStart :: rest) =>
    if rest.head?.all Token.isBoundary then return (.nothing, rest)
    else readRoot (handles ++ defaultHandles) rest
  | (_, rest) => if rest.length = ts.length then readRoot defaultHandles ts else none

/-- The document that a text holds, or nothing inside if the text says nothing at all. Fails on a text
that is no YAML, and on one with several documents. -/
def parse? (text : String) : Option (Option Document) := do
  let ts ← tokens? text
  if ts.isEmpty then return none
  let (root, rest) ← readDocument ts
  guard (rest.all (· == .documentEnd))
  return some (.ofRoot root)

end ViewSchema.Yaml
