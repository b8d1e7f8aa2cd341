import LadderMonitor.Assoc
import LadderMonitor.Yaml.Lexer
import LadderMonitor.Yaml.Schema

namespace LadderMonitor.Yaml

inductive Node where
  | scalar (tag : Tag) (text : String)
  | sequence (tag : Tag) (items : List Node)
  | mapping (tag : Tag) (entries : List (Node × Node))
  /-- A reference to a collection that the reference lies in. -/
  | enclosing (isMapping : Bool)
deriving Inhabited

namespace Node

/-- The node of a place where nothing is written. -/
def empty : Node := .scalar .null ""

end Node

/-- The state of the passage from tokens to nodes. An alias stands for the node with its anchor;
inside that node itself, where the tree would have no end, it stays a reference. -/
structure Parser where
  tokens : List Token
  /-- What the handles of tags stand for. -/
  handles : List (String × String) := []
  /-- The nodes with anchors, and references to those that are not complete. -/
  anchors : List (String × Node) := []

/-- A reading of tokens. -/
abbrev Parse (α : Type) := StateT Parser (Except Problem) α

namespace Parse

def malformed {α : Type} : Parse α := throw .malformed

def peek : Parse Token := return (← get).tokens.headD .streamEnd

def drop : Parse Unit := modify fun p => { p with tokens := p.tokens.tail }

/-- Moves over a token that must come next. -/
def expect (token : Token) : Parse Unit := do
  if (← peek) = token then drop else malformed

/-- Moves over a token if it comes next, and tells whether it did. -/
def accept (token : Token) : Parse Bool := do
  if (← peek) = token then
    drop
    return true
  return false

/-- What every handle stands for that is not declared otherwise. -/
def defaultHandles : List (String × String) := [("!", "!"), ("!!", Tag.coreStart)]

/-- The full name of a tag. -/
def tagName (handle : Option String) (suffix : String) : Parse String := do
  match handle with
  | none => return suffix
  | some handle =>
    match Assoc.get? handle (← get).handles with
    | some start => return start ++ suffix
    | none => malformed

def anchor? : Parse (Option String) := do
  match ← peek with
  | .anchor name =>
    drop
    return some name
  | _ => return none

def tag? : Parse (Option String) := do
  match ← peek with
  | .tag handle suffix =>
    drop
    return some (← tagName handle suffix)
  | _ => return none

/-- The anchor and the tag in front of a node, in either order. -/
def properties : Parse (Option String × Option String) := do
  match ← anchor? with
  | some name => return (some name, ← tag?)
  | none => do
    let tag ← tag?
    return (← anchor?, tag)

/-- An anchor that is about to be used must be new. -/
def checkAnchor (anchor : Option String) : Parse Unit := do
  match anchor with
  | none => return
  | some name =>
    match Assoc.get? name (← get).anchors with
    | some _ => malformed
    | none => return

def setAnchor (anchor : Option String) (node : Node) : Parse Unit :=
  match anchor with
  | none => return
  | some name => modify fun p => { p with anchors := Assoc.set name node p.anchors }

def anchored (name : String) : Parse Node := do
  match Assoc.get? name (← get).anchors with
  | some node => return node
  | none => malformed

/-- A tag that leaves the type open. -/
def isOpen (tag : Option String) : Bool := tag.isNone || tag == some "!"

/-- The type of a node: as its tag says, or else a given one. -/
def tagOr (tag : Option String) (other : Tag) : Tag :=
  match tag with
  | none => other
  | some name => if name = "!" then other else .ofName name

def scalarTag (tag : Option String) (text : String) (plain : Bool) : Tag :=
  tagOr tag (if plain || tag.isSome then Schema.plainTag text else .text)

/-- Names a scalar and hands it on. -/
def scalar (anchor tag : Option String) (text : String) (plain : Bool) : Parse Node := do
  let node := Node.scalar (scalarTag tag text plain) text
  setAnchor anchor node
  return node

/-- A sequence whose items are read by `read`. -/
def sequence (anchor tag : Option String) (read : Parse (List Node)) : Parse Node := do
  setAnchor anchor (.enclosing false)
  let node := Node.sequence (tagOr tag .sequence) (← read)
  setAnchor anchor node
  return node

/-- A mapping whose entries are read by `read`. -/
def mapping (anchor tag : Option String) (read : Parse (List (Node × Node))) : Parse Node := do
  setAnchor anchor (.enclosing true)
  let node := Node.mapping (tagOr tag .mapping) (← read)
  setAnchor anchor node
  return node

/-- Where a node stands: in a flow collection; in block context; or in a block mapping, where a
sequence needs no indentation of its own. -/
inductive Position where
  | flow
  | block
  | entry
deriving DecidableEq, Repr

/-- Whether the next token is one of these. -/
def ahead (tokens : List Token) : Parse Bool := return tokens.contains (← peek)

/-- The tokens before which a block node is left out. -/
def afterBlockKey : List Token := [.key, .value, .blockEnd]

/-- The empty node of a place with an anchor or a tag. -/
def nothing (anchor tag : Option String) : Parse Node :=
  if anchor.isNone && tag.isNone then malformed else scalar anchor tag "" (isOpen tag)

mutual

/-- A node. The first argument of this and the following readers bounds the depth of their calls;
each call moves over a token or is made by one that does. -/
def node : Nat → Position → Parse Node
  | 0, _ => malformed
  | depth + 1, position => do
    match ← peek with
    | .alias name => do
      drop
      anchored name
    | _ => do
      let (anchor, tag) ← properties
      checkAnchor anchor
      match ← peek with
      | .scalar text plain => do
        drop
        scalar anchor tag text plain
      | .flowSequenceStart => do
        drop
        sequence anchor tag (flowItems depth true)
      | .flowMappingStart => do
        drop
        mapping anchor tag (flowEntries depth true)
      | .blockSequenceStart => do
        if position = .flow then nothing anchor tag
        else
          drop
          sequence anchor tag (blockItems depth)
      | .blockMappingStart => do
        if position = .flow then nothing anchor tag
        else
          drop
          mapping anchor tag (blockEntries depth)
      | .blockEntry =>
        if position = .entry then sequence anchor tag (entryItems depth) else nothing anchor tag
      | _ => nothing anchor tag

/-- A node, or the empty one before certain tokens. -/
def nodeUnless : Nat → Position → List Token → Parse Node
  | 0, _, _ => malformed
  | depth + 1, position, stops => do
    if ← ahead stops then return .empty
    node depth position

def blockItems : Nat → Parse (List Node)
  | 0 => malformed
  | depth + 1 => do
    if ← accept .blockEntry then
      let item ← nodeUnless depth .block [.blockEntry, .blockEnd]
      return item :: (← blockItems depth)
    expect .blockEnd
    return []

/-- The items of a sequence that is not indented further than the mapping around it. -/
def entryItems : Nat → Parse (List Node)
  | 0 => malformed
  | depth + 1 => do
    if ← accept .blockEntry then
      let item ← nodeUnless depth .block (.blockEntry :: afterBlockKey)
      return item :: (← entryItems depth)
    return []

def blockEntries : Nat → Parse (List (Node × Node))
  | 0 => malformed
  | depth + 1 => do
    if ← accept .key then
      let key ← nodeUnless depth .entry afterBlockKey
      let value ← if ← accept .value then nodeUnless depth .entry afterBlockKey else pure .empty
      return (key, value) :: (← blockEntries depth)
    expect .blockEnd
    return []

/-- A key and its value in a flow collection that a token ends, the key mark having been read. -/
def flowEntry : Nat → Token → Parse (Node × Node)
  | 0, _ => malformed
  | depth + 1, closing => do
    let key ← nodeUnless depth .flow [.value, .flowEntry, closing]
    let value ←
      if ← accept .value then nodeUnless depth .flow [.flowEntry, closing] else pure .empty
    return (key, value)

/-- The items of a flow sequence. A key makes an item that is a mapping of one entry. -/
def flowItems : Nat → Bool → Parse (List Node)
  | 0, _ => malformed
  | depth + 1, first => do
    if ← accept .flowSequenceEnd then return []
    if !first then expect .flowEntry
    if ← accept .key then
      let entry ← flowEntry depth .flowSequenceEnd
      return .mapping .mapping [entry] :: (← flowItems depth false)
    if ← accept .flowSequenceEnd then return []
    let item ← node depth .flow
    return item :: (← flowItems depth false)

/-- The entries of a flow mapping. An item without a colon is a key without a value. -/
def flowEntries : Nat → Bool → Parse (List (Node × Node))
  | 0, _ => malformed
  | depth + 1, first => do
    if ← accept .flowMappingEnd then return []
    if !first then expect .flowEntry
    if ← accept .key then
      let entry ← flowEntry depth .flowMappingEnd
      return entry :: (← flowEntries depth false)
    if ← accept .flowMappingEnd then return []
    let key ← node depth .flow
    return (key, .empty) :: (← flowEntries depth false)

end

/-- Reads the directives of a document: a version at most once, which must be the first, and every
handle at most once. -/
def directives (versioned : Bool) (handles : List (String × String)) :
    List Token → Except Problem (List (String × String) × List Token)
  | .directive (.version major) :: rest =>
    if versioned || major ≠ 1 then .error .malformed else directives true handles rest
  | .directive (.tagHandle handle start) :: rest =>
    match Assoc.get? handle handles with
    | some _ => .error .malformed
    | none => directives versioned (handles ++ [(handle, start)]) rest
  | .directive .reserved :: rest => directives versioned handles rest
  | rest => .ok (handles, rest)

/-- The tokens before which an explicit document is empty. -/
def endsDocument : Token → Bool
  | .directive _ | .documentStart | .documentEnd | .streamEnd => true
  | _ => false

/-- A document that begins with directives or with its marker. -/
def explicitDocument (depth : Nat) : Parse Node := do
  let p ← get
  let (handles, tokens) ← directives false [] p.tokens
  let declared := defaultHandles.foldl (fun table e => Assoc.setAbsent e.1 e.2 table) handles
  set { p with tokens, handles := declared }
  expect .documentStart
  if endsDocument (← peek) then return .empty
  node depth .block

/-- Moves over the end markers of a document. Another document must not follow. -/
def finish : Parse Unit := do
  let left := (← get).tokens.dropWhile (· = .documentEnd)
  if left = [.streamEnd] then return else malformed

/-- The only document of a stream, if there is one. -/
def stream (depth : Nat) : Parse (Option Node) := do
  match ← peek with
  | .streamEnd => return none
  | .directive _ | .documentStart => do
    let root ← explicitDocument depth
    finish
    return some root
  | _ => do
    modify fun p => { p with handles := defaultHandles }
    let root ← node depth .block
    finish
    return some root

end Parse

/-- The root of the only document of a text, if it has one. -/
def document (text : List Char) : Except Problem (Option Node) := do
  let found ← tokens text
  let (root, _) ← (Parse.stream (3 * found.length + 3)).run { tokens := found }
  return root

end LadderMonitor.Yaml
