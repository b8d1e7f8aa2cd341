import LadderMonitor.Assoc
import LadderMonitor.Yaml.Scalar
import LadderMonitor.Yaml.Token

namespace LadderMonitor.Yaml

/-- A place in a text. -/
structure Place where
  rest : List Char
  index : Nat := 0
  line : Nat := 0
  column : Nat := 0
deriving Repr

namespace Place

def next (p : Place) : Place :=
  match p.rest with
  | [] => p
  | c :: rest =>
    if isBreak c then ⟨rest, p.index + 1, p.line + 1, 0⟩
    else ⟨rest, p.index + 1, p.line, if isOrderMark c then p.column else p.column + 1⟩

def skip : Nat → Place → Place
  | 0, p => p
  | n + 1, p => skip n p.next

def moveTo (p : Place) (rest : List Char) : Place := p.skip (p.rest.length - rest.length)

end Place

/-- How many characters of spaces, comments and line breaks come next, and whether there is a line
break among them. -/
def gapLength (comment : Bool) : List Char → Nat × Bool
  | [] => (0, false)
  | c :: rest =>
    if isBreak c then ((gapLength false rest).1 + 1, true)
    else if comment || c = '#' then
      let (length, broken) := gapLength true rest
      (length + 1, broken)
    else if c = ' ' then
      let (length, broken) := gapLength false rest
      (length + 1, broken)
    else (0, false)

/-- Where the key of a mapping may have begun: the number of its first token, and the place. It is
recognised only at the colon behind it, and then the tokens for it are put there. A key that is
required is one without which the text is malformed. -/
structure PossibleKey where
  token : Nat
  required : Bool
  place : Place
deriving Repr

/-- The state of the passage from text to tokens. -/
structure Lexer where
  place : Place
  tokens : Array Token := #[]
  /-- How many flow collections are open. -/
  flow : Nat := 0
  /-- The indentation of the innermost block collection, and those of the collections around it. -/
  indent : Int := -1
  outer : List Int := []
  /-- Whether a key may begin here. -/
  keyAllowed : Bool := true
  /-- Where keys may have begun, by flow depth. -/
  keys : List (Nat × PossibleKey) := []
deriving Repr

namespace Lexer

def push (l : Lexer) (token : Token) : Lexer := { l with tokens := l.tokens.push token }

def skip (l : Lexer) (count : Nat) : Lexer := { l with place := l.place.skip count }

def inBlock (l : Lexer) : Bool := l.flow == 0

def column (l : Lexer) : Int := l.place.column

/-- Keys end on the line on which they begin, and within so many characters. -/
def keyReach : Nat := 1024

def stale (l : Lexer) (k : PossibleKey) : Bool :=
  k.place.line ≠ l.place.line || keyReach < l.place.index - k.place.index

def dropStale (l : Lexer) : Except Problem Lexer :=
  if l.keys.any fun e => l.stale e.2 && e.2.required then .error .malformed
  else .ok { l with keys := l.keys.filter fun e => !l.stale e.2 }

def dropKey (l : Lexer) : Except Problem Lexer :=
  match Assoc.get? l.flow l.keys with
  | some k =>
    if k.required then .error .malformed
    else .ok { l with keys := Assoc.erase l.flow l.keys }
  | none => .ok l

/-- Remembers that a key may begin here. -/
def saveKey (l : Lexer) : Except Problem Lexer :=
  if !l.keyAllowed then .ok l
  else do
    let required := l.inBlock && l.indent == l.column
    let l ← l.dropKey
    return { l with keys := Assoc.set l.flow ⟨l.tokens.size, required, l.place⟩ l.keys }

/-- Closes the block collections that are indented further than a column. -/
def closeBlocks (column : Int) (l : Lexer) : Lexer :=
  if !l.inBlock then l
  else
    let indents := l.indent :: l.outer
    let left := indents.dropWhile (column < ·)
    let closed := indents.length - left.length
    { l with
      tokens := l.tokens ++ Array.replicate closed Token.blockEnd
      indent := left.headD (-1)
      outer := left.tail }

/-- Opens a block collection if a column is indented further than the innermost one. -/
def indentTo (column : Int) (l : Lexer) : Bool × Lexer :=
  if l.indent < column then (true, { l with indent := column, outer := l.indent :: l.outer })
  else (false, l)

/-- Opens a block collection here, with its token, if this column is indented further. -/
def openBlock (token : Token) (l : Lexer) : Lexer :=
  match l.indentTo l.column with
  | (true, l) => l.push token
  | (false, l) => l

/-- Moves to the next token. A line break allows a key in block context. -/
def skipGap (l : Lexer) : Lexer :=
  let mark := if l.place.index = 0 && (l.place.rest.head?.any isOrderMark) then 1 else 0
  let l := l.skip mark
  let (length, broken) := gapLength false l.place.rest
  { l.skip length with keyAllowed := l.keyAllowed || (broken && l.inBlock) }

/-- A document marker, which closes all block collections. -/
def marker (token : Token) (l : Lexer) : Except Problem Lexer := do
  let l ← (l.closeBlocks (-1)).dropKey
  return { (l.skip 3).push token with keyAllowed := false }

def streamEnd (l : Lexer) : Except Problem Lexer := do
  let l ← (l.closeBlocks (-1)).dropKey
  return l.push .streamEnd

/-- A directive; `rest` is the text behind the percent sign. -/
def directive (rest : List Char) (l : Lexer) : Except Problem Lexer := do
  let l ← (l.closeBlocks (-1)).dropKey
  match Token.directive? rest with
  | some (found, rest) =>
    return { l.push (.directive found) with place := l.place.moveTo rest, keyAllowed := false }
  | none => throw .malformed

def openFlow (token : Token) (l : Lexer) : Except Problem Lexer := do
  let l ← l.saveKey
  return { (l.skip 1).push token with flow := l.flow + 1, keyAllowed := true }

def closeFlow (token : Token) (l : Lexer) : Except Problem Lexer := do
  let l ← l.dropKey
  if l.inBlock then throw .malformed
  return { (l.skip 1).push token with flow := l.flow - 1, keyAllowed := false }

/-- The comma between the entries of a flow collection. -/
def flowEntry (l : Lexer) : Except Problem Lexer := do
  let l ← l.dropKey
  return { (l.skip 1).push .flowEntry with keyAllowed := true }

/-- The hyphen before an entry of a block sequence. -/
def blockEntry (l : Lexer) : Except Problem Lexer := do
  if l.inBlock && !l.keyAllowed then throw .malformed
  let l := if l.inBlock then l.openBlock .blockSequenceStart else l
  let l ← l.dropKey
  return { (l.skip 1).push .blockEntry with keyAllowed := true }

/-- The question mark before a key. -/
def explicitKey (l : Lexer) : Except Problem Lexer := do
  if l.inBlock && !l.keyAllowed then throw .malformed
  let l := if l.inBlock then l.openBlock .blockMappingStart else l
  let l ← l.dropKey
  return { (l.skip 1).push .key with keyAllowed := l.inBlock }

/-- Puts tokens in front of the token with a number. -/
def insertAt (position : Nat) (inserted : Array Token) (l : Lexer) : Lexer :=
  { l with tokens :=
    l.tokens.extract 0 position ++ inserted ++ l.tokens.extract position l.tokens.size }

/-- The colon behind a key that was recognised as one. -/
def keyValue (k : PossibleKey) (l : Lexer) : Lexer :=
  let l := { l with keys := Assoc.erase l.flow l.keys }
  let (opens, l) := if l.inBlock then l.indentTo k.place.column else (false, l)
  let l := l.insertAt k.token (if opens then #[.blockMappingStart, .key] else #[.key])
  { (l.skip 1).push .value with keyAllowed := false }

/-- The colon before a value. -/
def value (l : Lexer) : Except Problem Lexer :=
  match Assoc.get? l.flow l.keys with
  | some k => .ok (l.keyValue k)
  | none => do
    if l.inBlock && !l.keyAllowed then throw .malformed
    let l := if l.inBlock then l.openBlock .blockMappingStart else l
    let l ← l.dropKey
    return { (l.skip 1).push .value with keyAllowed := l.inBlock }

/-- A token that may begin a key, and the text behind it. -/
def word (read : Option (Token × List Char)) (l : Lexer) : Except Problem Lexer := do
  let l ← l.saveKey
  match read with
  | some (token, rest) =>
    return { l.push token with place := l.place.moveTo rest, keyAllowed := false }
  | none => throw .malformed

/-- A literal or folded scalar, after which a key may begin. -/
def block (folded : Bool) (rest : List Char) (l : Lexer) : Except Problem Lexer := do
  let l ← l.dropKey
  let (text, rest) ← blockScalar folded l.indent rest
  return { l.push (.scalar text false) with place := l.place.moveTo rest, keyAllowed := true }

def quoted (double : Bool) (rest : List Char) (l : Lexer) : Except Problem Lexer := do
  let l ← l.saveKey
  let (text, rest) ← quotedScalar double rest
  return { l.push (.scalar text false) with place := l.place.moveTo rest, keyAllowed := false }

def plainWord (l : Lexer) : Except Problem Lexer := do
  let l ← l.saveKey
  let (text, length) := plain (!l.inBlock) (l.indent + 1) l.place.column l.place.rest
  return { (l.skip length).push (.scalar text true) with keyAllowed := false }

/-- Whether a plain scalar may begin with a character that `rest` follows. -/
def beginsPlain (l : Lexer) (c : Char) (rest : List Char) : Bool :=
  if isSpace c then false
  else if c = '-' then !atSpace rest
  else if c = '?' || c = ':' then l.inBlock && !atSpace rest
  else c.toNat ≠ 0x27 && c.toNat ≠ 0x22 && c.toNat ≠ 0x60 &&
    !",[]\x7b\x7d#&*!|>%@".toList.contains c

def token (l : Lexer) : Except Problem Lexer :=
  match l.place.rest with
  | [] => l.streamEnd
  | c :: rest =>
    let first := l.place.column = 0
    let indicates := !l.inBlock || atSpace rest
    if c = '%' && first then l.directive rest
    else if first && atMarker '-' (c :: rest) then l.marker .documentStart
    else if first && atMarker '.' (c :: rest) then l.marker .documentEnd
    else if c = '[' then l.openFlow .flowSequenceStart
    else if c = '\x7b' then l.openFlow .flowMappingStart
    else if c = ']' then l.closeFlow .flowSequenceEnd
    else if c = '\x7d' then l.closeFlow .flowMappingEnd
    else if c = ',' then l.flowEntry
    else if c = '-' && atSpace rest then l.blockEntry
    else if c = '?' && indicates then l.explicitKey
    else if c = ':' && indicates then l.value
    else if c = '*' then
      l.word ((Token.name? rest).map fun (name, rest) => (.alias name, rest))
    else if c = '&' then
      l.word ((Token.name? rest).map fun (name, rest) => (.anchor name, rest))
    else if c = '!' then l.word (Token.tag? rest)
    else if c = '|' && l.inBlock then l.block false rest
    else if c = '>' && l.inBlock then l.block true rest
    else if c.toNat = 0x27 then l.quoted false rest
    else if c.toNat = 0x22 then l.quoted true rest
    else if l.beginsPlain c rest then l.plainWord
    else .error .malformed

def step (l : Lexer) : Except Problem Lexer := do
  let l ← l.skipGap.dropStale
  (l.closeBlocks l.column).token

/-- Reads tokens up to the end of the text. Every token but the last takes up a character. -/
def run (l : Lexer) : Except Problem (Array Token) :=
  match l.step with
  | .error problem => .error problem
  | .ok next =>
    if next.tokens.back? = some .streamEnd then .ok next.tokens
    else if next.place.rest.length < l.place.rest.length then next.run
    else .error .malformed
termination_by l.place.rest.length

end Lexer

def tokens (text : List Char) : Except Problem (List Token) := do
  if !text.all isPrintable then throw .malformed
  let place : Place := { rest := unifyBreaks text }
  return (← Lexer.run { place }).toList

end LadderMonitor.Yaml
