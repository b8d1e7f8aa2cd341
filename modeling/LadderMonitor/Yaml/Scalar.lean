import LadderMonitor.Yaml.Character

namespace LadderMonitor.Yaml

/-- What has been read since the last character of a scalar that is sure to belong to it. -/
inductive Gap where
  /-- Blanks, which count if no line break follows. -/
  | blanks (read : List Char)
  /-- A line break, and the values of further ones. -/
  | breaks (first : Char) (further : List Char)
  /-- An escaped line break; what follows it does not fold. -/
  | joined
deriving DecidableEq, Repr

namespace Gap

def nothing : Gap := .blanks []

def isNothing (g : Gap) : Bool := g == nothing

/-- What a gap counts as when the scalar goes on: a single line break as a space, and of several the
first one is dropped. -/
def text : Gap → List Char
  | blanks read => read
  | breaks first further =>
    if first ≠ '\n' then first :: further
    else if further.isEmpty then [' ']
    else further
  | joined => []

def addBlank (c : Char) : Gap → Gap
  | blanks read => blanks (read ++ [c])
  | g => g

def addBreak (c : Char) : Gap → Gap
  | breaks first further => breaks first (further ++ [breakValue c])
  | _ => breaks (breakValue c) []

end Gap

/-- Whether a plain scalar ends before this text, which does not begin with a space or line break.
In flow context the punctuation of collections ends it too. -/
def endsPlain (flow : Bool) : List Char → Bool
  | [] => true
  | ':' :: rest => atSpace rest || (flow && ",[]\x7b\x7d".toList.contains (rest.headD ' '))
  | c :: _ => c = '\t' || (flow && ",?[]\x7b\x7d".toList.contains c)

/-- The text of a plain scalar, and how many characters it takes up. After a gap, a comment ends it,
and a document separator, and a line with less indentation than `indent`. -/
def plainFrom (flow : Bool) (indent : Int) : Nat → Gap → Nat → List Char → List Char × Nat
  | _, _, _, [] => ([], 0)
  | column, gap, width, c :: rest =>
    if c = ' ' then plainFrom flow indent (column + 1) (gap.addBlank c) (width + 1) rest
    else if isBreak c then
      if atSeparator rest then ([], 0)
      else plainFrom flow indent 0 (gap.addBreak c) (width + 1) rest
    else if endsPlain flow (c :: rest) then ([], 0)
    else if !gap.isNothing && (c = '#' || (!flow && (column : Int) < indent)) then ([], 0)
    else
      let (text, length) :=
        plainFrom flow indent (if isOrderMark c then column else column + 1) .nothing 0 rest
      (gap.text ++ c :: text, width + 1 + length)

/-- The text of a plain scalar that begins in a column, and how many characters it takes up. -/
def plain (flow : Bool) (indent : Int) (column : Nat) (cs : List Char) : String × Nat :=
  let (text, length) := plainFrom flow indent column .nothing 0 cs
  (String.ofList text, length)

/-- The characters that a backslash and a single character write. -/
def shortEscapes : List (Char × Nat) :=
  [('0', 0x00), ('a', 0x07), ('b', 0x08), ('t', 0x09), ('\t', 0x09), ('n', 0x0A), ('v', 0x0B),
   ('f', 0x0C), ('r', 0x0D), ('e', 0x1B), (' ', 0x20), (Char.ofNat 0x22, 0x22), ('/', 0x2F),
   ('\\', 0x5C), ('N', 0x85), ('_', 0xA0), ('L', 0x2028), ('P', 0x2029)]

/-- The letters that begin a numbered escape, and how many digits follow. -/
def longEscapes : List (Char × Nat) := [('x', 2), ('u', 4), ('U', 8)]

/-- The character that hexadecimal digits name. A surrogate has no place in a text; it is replaced.
-/
def numbered (digits : List Char) : Except Problem Char :=
  let n := hexValue digits
  if 0x10FFFF < n then .error (.fault .characterNumber)
  else if 0xD800 ≤ n && n ≤ 0xDFFF then .ok (Char.ofNat 0xFFFD)
  else .ok (Char.ofNat n)

inductive Piece where
  | char (c : Char)
  | blank (c : Char)
  | lineBreak (c : Char)
  /-- A line break behind a backslash. -/
  | joint
deriving DecidableEq, Repr

/-- The pieces of a scalar in single quotes, and what follows the closing quote. -/
def singleQuoted : List Char → Except Problem (List Piece × List Char)
  | [] => .error .malformed
  | c :: rest =>
    if c.toNat = 0x27 then
      match rest with
      | [] => .ok ([], [])
      | d :: behind =>
        if d.toNat = 0x27 then do
          let (pieces, tail) ← singleQuoted behind
          return (.char d :: pieces, tail)
        else .ok ([], d :: behind)
    else if isBreak c then
      if atSeparator rest then .error .malformed
      else do
        let (pieces, tail) ← singleQuoted rest
        return (.lineBreak c :: pieces, tail)
    else do
      let (pieces, tail) ← singleQuoted rest
      return ((if isBlank c then .blank c else .char c) :: pieces, tail)

/-- Where the reading of a scalar in double quotes stands: outside escapes, behind a backslash, or
inside the digits of a numbered escape, of which some are missing. -/
inductive EscapeState where
  | outside
  | backslash
  | digits (missing : Nat) (read : List Char)
deriving DecidableEq, Repr

/-- The pieces of a scalar in double quotes, and what follows the closing quote. -/
def doubleQuotedFrom : EscapeState → List Char → Except Problem (List Piece × List Char)
  | _, [] => .error .malformed
  | .outside, c :: rest =>
    if c.toNat = 0x22 then .ok ([], rest)
    else if c = '\\' then doubleQuotedFrom .backslash rest
    else if isBreak c && atSeparator rest then .error .malformed
    else do
      let (pieces, tail) ← doubleQuotedFrom .outside rest
      let piece := if isBreak c then Piece.lineBreak c else if isBlank c then .blank c else .char c
      return (piece :: pieces, tail)
  | .backslash, c :: rest =>
    match shortEscapes.lookup c, longEscapes.lookup c with
    | some n, _ => do
      let (pieces, tail) ← doubleQuotedFrom .outside rest
      return (.char (Char.ofNat n) :: pieces, tail)
    | none, some count => doubleQuotedFrom (.digits count []) rest
    | none, none =>
      if !isBreak c || atSeparator rest then .error .malformed
      else do
        let (pieces, tail) ← doubleQuotedFrom .outside rest
        return (.joint :: pieces, tail)
  | .digits missing read, c :: rest =>
    if !isHexDigit c then .error .malformed
    else if missing ≤ 1 then do
      let char ← numbered (read ++ [c])
      let (pieces, tail) ← doubleQuotedFrom .outside rest
      return (.char char :: pieces, tail)
    else doubleQuotedFrom (.digits (missing - 1) (read ++ [c])) rest

/-- The text that pieces make, behind a gap. -/
def foldPieces : Gap → List Piece → List Char
  | gap, [] => gap.text
  | gap, .char c :: rest => gap.text ++ c :: foldPieces .nothing rest
  | gap, .joint :: rest => gap.text ++ foldPieces .joined rest
  | gap, .blank c :: rest => foldPieces (gap.addBlank c) rest
  | .joined, .lineBreak c :: rest => breakValue c :: foldPieces .joined rest
  | gap, .lineBreak c :: rest => foldPieces (gap.addBreak c) rest

/-- A quoted scalar behind its opening quote: its text, and what follows the closing quote. -/
def quotedScalar (double : Bool) (cs : List Char) : Except Problem (String × List Char) := do
  let (pieces, rest) ← if double then doubleQuotedFrom .outside cs else singleQuoted cs
  return (String.ofList (foldPieces .nothing pieces), rest)

/-- What happens to the line breaks at the end of a block scalar. -/
inductive Chomping where
  | strip
  | clip
  | keep
deriving DecidableEq, Repr

/-- The sign that chooses how a block scalar ends. -/
def Chomping.ofChar? : Char → Option Chomping
  | '-' => some .strip
  | '+' => some .keep
  | _ => none

/-- The indicators in the first line of a block scalar. -/
structure BlockHeader where
  chomping : Chomping := .clip
  /-- The indentation beyond that of the parent, if it is given. -/
  indent : Option Nat := none
deriving DecidableEq, Repr

namespace BlockHeader

def takeChomping (h : BlockHeader) : List Char → BlockHeader × List Char
  | c :: rest =>
    match Chomping.ofChar? c with
    | some chomping => ({ h with chomping }, rest)
    | none => (h, c :: rest)
  | [] => (h, [])

def takeIndent (h : BlockHeader) : List Char → BlockHeader × List Char
  | c :: rest =>
    if c.isDigit then ({ h with indent := some (c.toNat - 48) }, rest) else (h, c :: rest)
  | [] => (h, [])

/-- Indicators without a digit in front: perhaps a sign, and a digit behind it. -/
def readSign (cs : List Char) : BlockHeader × List Char :=
  match takeChomping {} cs with
  | (h, rest) => if h.chomping = .clip then (h, rest) else h.takeIndent rest

/-- Indicators with a digit in front. -/
def readDigit (cs : List Char) : BlockHeader × List Char :=
  match takeIndent {} cs with
  | (h, rest) => h.takeChomping rest

def read (cs : List Char) : Except Problem (BlockHeader × List Char) :=
  let (h, rest) := if (cs.headD ' ').isDigit then readDigit cs else readSign cs
  if h.indent = some 0 || !atGap rest then .error .malformed else .ok (h, rest)

end BlockHeader

/-- A line of a text: what stands in it, and the break at its end. -/
structure Line where
  text : List Char
  ending : Option Char
deriving DecidableEq, Repr

namespace Line

def length (l : Line) : Nat := l.text.length + if l.ending.isSome then 1 else 0

def split : List Char → List Line
  | [] => []
  | c :: rest =>
    if isBreak c then ⟨[], some c⟩ :: split rest
    else match split rest with
      | l :: lines => { l with text := c :: l.text } :: lines
      | [] => [⟨[c], none⟩]

def spaces (l : Line) : Nat := (l.text.takeWhile (· = ' ')).length

def isEmpty (l : Line) : Bool := l.text.all (· = ' ')

end Line

/-- The deepest indentation among the empty lines at the front and the line behind them. -/
def frontIndent : List Line → Nat
  | [] => 0
  | l :: rest => if l.isEmpty && l.ending.isSome then max l.spaces (frontIndent rest) else l.spaces

/-- The last line of a block scalar that was read: its break, and whether it is indented further
than the scalar. -/
structure LastLine where
  ending : Option Char
  further : Bool

/-- What stands between two lines of a block scalar that have no empty line between them. -/
def lineJoint (folded : Bool) (last : LastLine) (further empty : Bool) : List Char :=
  if folded && last.ending = some '\n' && !last.further && !further then
    if empty then [] else [' ']
  else last.ending.toList

/-- What stands behind the last line of a block scalar, the empty lines after it being `waiting`. -/
def tail (chomping : Chomping) (last : Option LastLine) (waiting : List Char) : List Char :=
  match chomping, last with
  | .strip, _ => []
  | .clip, last => (last.bind (·.ending)).toList
  | .keep, last => (last.bind (·.ending)).toList ++ waiting

/-- The text of the lines of a block scalar, and how many characters they take up. The empty lines
read last wait, because what they count as depends on the next line; `width` is what they take up.
-/
def blockLines (folded : Bool) (chomping : Chomping) (indent : Nat) :
    Option LastLine → List Char → Nat → List Line → List Char × Nat
  | last, waiting, width, [] => (tail chomping last waiting, width)
  | last, waiting, width, l :: rest =>
    let inner := l.text.drop (min indent l.spaces)
    match inner, l.ending with
    | [], some c =>
      blockLines folded chomping indent last (waiting ++ [breakValue c]) (width + l.length) rest
    | [], none => (tail chomping last waiting, width)
    | c :: _, ending =>
      if l.spaces < indent then (tail chomping last waiting, width)
      else
        let further := isBlank c
        let joint := match last with
          | some last => lineJoint folded last further (!waiting.isEmpty)
          | none => []
        let (text, length) := blockLines folded chomping indent
          (some ⟨ending.map breakValue, further⟩) [] 0 rest
        (joint ++ waiting ++ inner ++ text, width + l.length + length)

/-- A block scalar behind its indicator: its text, and what follows it. -/
def blockScalar (folded : Bool) (parentIndent : Int) (cs : List Char) :
    Except Problem (String × List Char) := do
  let (header, rest) ← BlockHeader.read cs
  let body := match (rest.dropWhile (· = ' ')) with
    | '#' :: comment => comment.dropWhile (!isBreak ·)
    | other => other
  match body with
  | [] => return ("", [])
  | c :: content =>
    if !isBreak c then throw .malformed
    let lines := Line.split content
    let least := (max 1 (parentIndent + 1)).toNat
    let indent := match header.indent with
      | some n => least + n - 1
      | none => max least (frontIndent lines)
    let (text, length) := blockLines folded header.chomping indent none [] 0 lines
    return (String.ofList text, content.drop length)

end LadderMonitor.Yaml
