import LadderMonitor.Numeric.Numeral
import LadderMonitor.Yaml.Character

namespace LadderMonitor.Yaml

/-- A line before a document that says how to read it. -/
inductive Directive where
  | version (major : Nat)
  | tagHandle (handle start : String)
  | reserved
deriving DecidableEq, Repr

inductive Token where
  | directive (directive : Directive)
  | documentStart
  | documentEnd
  | blockSequenceStart
  | blockMappingStart
  | blockEnd
  | flowSequenceStart
  | flowSequenceEnd
  | flowMappingStart
  | flowMappingEnd
  | blockEntry
  | flowEntry
  | key
  | value
  | alias (name : String)
  | anchor (name : String)
  /-- A tag: a handle to be replaced, if there is one, and what follows it. -/
  | tag (handle : Option String) (suffix : String)
  | scalar (text : String) (plain : Bool)
  | streamEnd
deriving DecidableEq, Repr, Inhabited

namespace Token

def name? (cs : List Char) : Option (String × List Char) :=
  let name := cs.takeWhile isWordChar
  let rest := cs.dropWhile isWordChar
  let ended := match rest with
    | [] => true
    | c :: _ => isSpace c || c.toNat = 0x60 || "?:,]\x7d%@".toList.contains c
  if name.isEmpty || !ended then none else some (String.ofList name, rest)

/-- The bytes that the characters of a tag write; an escape writes one byte. -/
def tagBytes? : List Char → Option (List UInt8 × List Char)
  | '%' :: a :: b :: rest =>
    if isHexDigit a && isHexDigit b then
      (tagBytes? rest).map fun (bytes, tail) => (UInt8.ofNat (hexValue [a, b]) :: bytes, tail)
    else none
  | c :: rest =>
    if isTagChar c then
      (tagBytes? rest).map fun (bytes, tail) => (UInt8.ofNat c.toNat :: bytes, tail)
    else if c = '%' then none
    else some ([], c :: rest)
  | [] => some ([], [])

/-- The characters of a tag, at least one. -/
def tagText? (cs : List Char) : Option (String × List Char) := do
  let (bytes, rest) ← tagBytes? cs
  if bytes.isEmpty then none
  match Utf8.decode bytes with
  | .ok text => return (String.ofList text, rest)
  | .error _ => none

/-- A named tag handle, behind its first exclamation mark: a word between exclamation marks, or one
mark alone where a space may follow. -/
def handle? (cs : List Char) : Option (String × List Char) :=
  match cs with
  | ' ' :: _ => some ("!", cs)
  | _ =>
    match cs.dropWhile isWordChar with
    | '!' :: rest => some ("!" ++ String.ofList (cs.takeWhile isWordChar) ++ "!", rest)
    | _ => none

/-- A tag behind its exclamation mark. -/
def tag? (cs : List Char) : Option (Token × List Char) := do
  let (token, rest) ← match cs with
    | '<' :: body => do
      let (text, rest) ← tagText? body
      match rest with
      | '>' :: rest => some (Token.tag none text, rest)
      | _ => none
    | _ =>
      if atSpace cs then some (Token.tag none "!", cs)
      else do
        let named := (cs.takeWhile fun c => !atGap [c]).contains '!'
        let (handle, body) ← if named then handle? cs else some ("!", cs)
        let (text, rest) ← tagText? body
        some (Token.tag (some handle) text, rest)
  if atGap rest then some (token, rest) else none

/-- The rest of a line that may hold nothing but a comment. -/
def lineRest? (cs : List Char) : Option (List Char) :=
  match cs.dropWhile (· = ' ') with
  | '#' :: rest => some (rest.dropWhile (!isBreak ·))
  | rest => if atLineEnd rest then some rest else none

def versionNumber? (cs : List Char) : Option (Nat × List Char) :=
  let digits := cs.takeWhile (·.isDigit)
  if digits.isEmpty then none else some (Numeral.value digits, cs.dropWhile (·.isDigit))

def version? (cs : List Char) : Option (Directive × List Char) := do
  let (major, rest) ← versionNumber? (cs.dropWhile (· = ' '))
  match rest with
  | '.' :: minor => do
    let (_, rest) ← versionNumber? minor
    if atGap rest then some (.version major, rest) else none
  | _ => none

/-- The handle that a directive declares, and what it stands for. -/
def tagHandle? (cs : List Char) : Option (Directive × List Char) := do
  match cs.dropWhile (· = ' ') with
  | '!' :: body => do
    let (handle, rest) ← handle? body
    match rest with
    | ' ' :: _ => do
      let (start, rest) ← tagText? (rest.dropWhile (· = ' '))
      if atGap rest then some (.tagHandle handle start, rest) else none
    | _ => none
  | _ => none

/-- A directive behind its percent sign, up to the end of the line. -/
def directive? (cs : List Char) : Option (Directive × List Char) := do
  let name := String.ofList (cs.takeWhile isWordChar)
  let body := cs.dropWhile isWordChar
  if name.isEmpty || !atGap body then none
  let (found, rest) ←
    if name = "YAML" then version? body
    else if name = "TAG" then tagHandle? body
    else some (.reserved, body.dropWhile (!isBreak ·))
  return (found, ← lineRest? rest)

end Token

end LadderMonitor.Yaml
