import LadderMonitor.Fault

namespace LadderMonitor.Yaml

/-- Why a text yields no value. -/
inductive Problem where
  /-- The text is no YAML document, or its value cannot be built. -/
  | malformed
  /-- A scalar is not what its tag says. -/
  | fault (fault : Fault)
deriving DecidableEq, Repr

/-- A character that may occur in a text. -/
def isPrintable (c : Char) : Bool :=
  let n := c.toNat
  n = 0x09 || n = 0x0A || n = 0x0D || n = 0x85 || (0x20 ≤ n && n ≤ 0x7E) ||
    (0xA0 ≤ n && n ≤ 0xFFFD) || 0x10000 ≤ n

/-- The end of a line: the line feed and three breaks of Unicode. -/
def isBreak (c : Char) : Bool :=
  c = '\n' || c.toNat = 0x85 || c.toNat = 0x2028 || c.toNat = 0x2029

/-- What a line break is inside a scalar: all but the two separators are line feeds. -/
def breakValue (c : Char) : Char := if c.toNat = 0x85 then '\n' else c

def isBlank (c : Char) : Bool := c = ' ' || c = '\t'

def isSpace (c : Char) : Bool := isBlank c || isBreak c

/-- Whether the text ends here or goes on with a space. -/
def atSpace : List Char → Bool
  | [] => true
  | c :: _ => isSpace c

/-- Whether the text ends here or goes on with a space other than a tab. -/
def atGap : List Char → Bool
  | [] => true
  | c :: _ => c = ' ' || isBreak c

/-- Whether the text ends here or goes on with a line break. -/
def atLineEnd : List Char → Bool
  | [] => true
  | c :: _ => isBreak c

/-- ASCII letters, digits, the hyphen and the underscore. -/
def isWordChar (c : Char) : Bool := c.isAlphanum || c = '-' || c = '_'

/-- The characters of tags, the percent sign aside. -/
def isTagChar (c : Char) : Bool :=
  c.isAlphanum || c.toNat = 0x27 || "-;/?:@&=+$,_.!~*()[]".toList.contains c

def isHexDigit (c : Char) : Bool :=
  c.isDigit || ('a' ≤ c && c ≤ 'f') || ('A' ≤ c && c ≤ 'F')

def hexDigitValue (c : Char) : Nat :=
  if c.isDigit then c.toNat - 48
  else if c.isUpper then c.toNat - 55
  else c.toNat - 87

def hexValue (digits : List Char) : Nat := digits.foldl (fun n c => 16 * n + hexDigitValue c) 0

/-- Whether a line that begins here is a document marker of three characters. -/
def atMarker (mark : Char) : List Char → Bool
  | a :: b :: c :: rest => a = mark && b = mark && c = mark && atSpace rest
  | _ => false

def atSeparator (cs : List Char) : Bool := atMarker '-' cs || atMarker '.' cs

/-- Makes a line feed of every carriage return, and of every one with a line feed behind it. -/
def unifyBreaks : List Char → List Char
  | '\r' :: '\n' :: rest => '\n' :: unifyBreaks rest
  | '\r' :: rest => '\n' :: unifyBreaks rest
  | c :: rest => c :: unifyBreaks rest
  | [] => []

/-- The byte order mark, which takes no column. -/
def isOrderMark (c : Char) : Bool := c.toNat = 0xFEFF

end LadderMonitor.Yaml
