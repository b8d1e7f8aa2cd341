import LadderMonitor.Numeric.Numeral
import LadderMonitor.Yaml.Character

namespace LadderMonitor.Yaml

/-- What a node is built as. -/
inductive Tag where
  | null
  | bool
  | int
  | real
  | binary
  | timestamp
  | text
  | sequence
  | mapping
  | set
  | orderedMap
  | pairs
  /-- A key whose value is merged into the mapping around it. -/
  | merge
  /-- A key whose value stands for the mapping around it where a scalar is wanted. -/
  | default
  | unknown
deriving DecidableEq, Repr

namespace Tag

/-- What the tags of the core types begin with. -/
def coreStart : String := "tag:yaml.org,2002:"

def core : List (String × Tag) :=
  [("null", null), ("bool", bool), ("int", int), ("float", real), ("binary", binary),
   ("timestamp", timestamp), ("str", text), ("seq", sequence), ("map", mapping), ("set", set),
   ("omap", orderedMap), ("pairs", pairs), ("merge", merge), ("value", default)]

/-- The type that a full tag names. -/
def ofName (name : String) : Tag :=
  match core.find? fun e => coreStart ++ e.1 == name with
  | some (_, tag) => tag
  | none => unknown

end Tag

namespace Schema

/-- Whether a text is a word in one of its three spellings: all small, capitalised, all capitals. -/
def isSpelling (word : String) (cs : List Char) : Bool :=
  let small := word.toList
  let capitals := small.map Char.toUpper
  cs == small || cs == capitals || cs == capitals.take 1 ++ small.drop 1

def isTruthWord (cs : List Char) : Bool :=
  ["yes", "no", "true", "false", "on", "off"].any (isSpelling · cs)

def isNullWord (cs : List Char) : Bool := cs.isEmpty || cs == ['~'] || isSpelling "null" cs

/-- Digits of a class, or underscores. -/
def isRun (digit : Char → Bool) (cs : List Char) : Bool := cs.all fun c => digit c || c = '_'

/-- Digits of a class, or underscores, at least one. -/
def isFilledRun (digit : Char → Bool) (cs : List Char) : Bool := !cs.isEmpty && isRun digit cs

def dropSign : List Char → List Char
  | c :: rest => if c = '+' || c = '-' then rest else c :: rest
  | [] => []

/-- A number below sixty behind a colon. -/
def isSixtieth : List Char → Bool
  | [a] => Numeral.isDigit a
  | [a, b] => '0' ≤ a && a ≤ '5' && Numeral.isDigit b
  | _ => false

/-- The parts of a text between colons. -/
def colonParts : List Char → List (List Char)
  | [] => [[]]
  | c :: rest =>
    if c = ':' then [] :: colonParts rest
    else match colonParts rest with
      | part :: parts => (c :: part) :: parts
      | [] => [[c]]

/-- Numbers below sixty behind colons, at least one, after a number of another form. -/
def isSexagesimal (first : List Char → Bool) (cs : List Char) : Bool :=
  match colonParts cs with
  | head :: tail => first head && !tail.isEmpty && tail.all isSixtieth
  | [] => false

def isDecimal : List Char → Bool
  | c :: rest => '1' ≤ c && c ≤ '9' && isRun Numeral.isDigit rest
  | [] => false

/-- An integer: decimal, octal behind a zero, binary, hexadecimal, or in base sixty. -/
def isInt (cs : List Char) : Bool :=
  let body := dropSign cs
  body == ['0'] || isDecimal body || isSexagesimal isDecimal body ||
    match body with
    | '0' :: 'b' :: digits => isFilledRun (fun c => c = '0' || c = '1') digits
    | '0' :: 'x' :: digits => isFilledRun isHexDigit digits
    | '0' :: digits => isFilledRun (fun c => '0' ≤ c && c ≤ '7') digits
    | _ => false

/-- An exponent, which needs its sign, or nothing. -/
def isExponent : List Char → Bool
  | [] => true
  | e :: s :: digits =>
    (e = 'e' || e = 'E') && (s = '+' || s = '-') && !digits.isEmpty && digits.all Numeral.isDigit
  | _ => false

/-- Digits after a point, and perhaps an exponent. -/
def isFraction (cs : List Char) : Bool :=
  isExponent (cs.dropWhile fun c => Numeral.isDigit c || c = '_')

def isDigits : List Char → Bool
  | c :: rest => Numeral.isDigit c && isRun Numeral.isDigit rest
  | [] => false

/-- A floating-point number in base sixty. -/
def isSexagesimalReal (cs : List Char) : Bool :=
  let whole := cs.takeWhile (· ≠ '.')
  match cs.dropWhile (· ≠ '.') with
  | '.' :: places => isRun Numeral.isDigit places && isSexagesimal isDigits whole
  | _ => false

/-- A floating-point number: with a point, an infinity, or the value without a number. -/
def isReal (cs : List Char) : Bool :=
  let body := dropSign cs
  (match body.dropWhile (· ≠ '.') with
    | '.' :: places => isDigits (body.takeWhile (· ≠ '.')) && isFraction places
    | _ => false) ||
  (match cs with
    | '.' :: c :: places => Numeral.isDigit c && isFraction places
    | _ => false) ||
  isSexagesimalReal body ||
  (match body with
    | '.' :: word => isSpelling "inf" word
    | _ => false) ||
  cs == ['.', 'n', 'a', 'n'] || cs == ['.', 'N', 'a', 'N'] || cs == ['.', 'N', 'A', 'N']

/-- A count of digits at the front, at least `least` and at most `most`, and what follows them. -/
def digits? (least most : Nat) (cs : List Char) : Option (Nat × List Char) :=
  let read := (cs.take most).takeWhile Numeral.isDigit
  if read.length < least then none else some (Numeral.value read, cs.drop read.length)

/-- A character at the front, dropped. -/
def expect? (c : Char) : List Char → Option (List Char)
  | d :: rest => if c = d then some rest else none
  | [] => none

structure Timestamp where
  year : Nat
  month : Nat
  day : Nat
  /-- The hour, minute and second, unless only a day is given. -/
  clock : Option (Nat × Nat × Nat)
deriving DecidableEq, Repr

/-- The distance from world time behind a time of day, or nothing. -/
def isZone (cs : List Char) : Bool :=
  match cs.dropWhile isBlank with
  | [] => cs.isEmpty
  | ['Z'] => true
  | c :: rest =>
    if c = '+' || c = '-' then
      match digits? 1 2 rest with
      | some (_, []) => true
      | some (_, ':' :: minutes) => minutes.length == 2 && minutes.all Numeral.isDigit
      | _ => false
    else false

def clock? (cs : List Char) : Option (Nat × Nat × Nat) := do
  let (hour, rest) ← digits? 1 2 cs
  let (minute, rest) ← digits? 2 2 (← expect? ':' rest)
  let (second, rest) ← digits? 2 2 (← expect? ':' rest)
  let zone := match rest with
    | '.' :: places => places.dropWhile Numeral.isDigit
    | _ => rest
  if isZone zone then some (hour, minute, second) else none

/-- The time of day behind a day: after a letter or blanks. -/
def clockPart? : List Char → Option (Nat × Nat × Nat)
  | 't' :: rest => clock? rest
  | 'T' :: rest => clock? rest
  | c :: rest => if isBlank c then clock? (rest.dropWhile isBlank) else none
  | [] => none

/-- A point in time: a day, and perhaps a time of day. -/
def timestamp? (cs : List Char) : Option Timestamp := do
  let (year, rest) ← digits? 4 4 cs
  let (month, rest) ← digits? 1 2 (← expect? '-' rest)
  let (day, rest) ← digits? 1 2 (← expect? '-' rest)
  if rest.isEmpty then return ⟨year, month, day, none⟩
  return ⟨year, month, day, some (← clockPart? rest)⟩

/-- Whether an untagged text is a point in time; a day alone needs all its digits. -/
def isTimestamp (cs : List Char) : Bool :=
  match timestamp? cs with
  | some t => t.clock.isSome || cs.length = 10
  | none => false

/-- The type of an untagged plain scalar. -/
def plainTag (text : String) : Tag :=
  let cs := text.toList
  if isTruthWord cs then .bool
  else if isReal cs then .real
  else if isInt cs then .int
  else if cs == ['<', '<'] then .merge
  else if isNullWord cs then .null
  else if isTimestamp cs then .timestamp
  else if cs == ['='] then .default
  else .text

end Schema

end LadderMonitor.Yaml
