import LadderMonitor.Numeric.Conversion
import LadderMonitor.Numeric.Numeral
import LadderMonitor.Plant.Project

namespace LadderMonitor

/-- What an address is asked for. -/
inductive Target where
  | text (value : String)
  | symbol (value : Symbol)
  | other

/-- The number of a direct address: its digits and, after a point, those of its fraction. -/
structure AddressNumber where
  whole : List Char
  fraction : Option (List Char)
deriving DecidableEq, Repr

namespace AddressNumber

/-- Reads a number that takes up the whole text. -/
def parse? (cs : List Char) : Option AddressNumber :=
  let whole := cs.takeWhile Numeral.isDigit
  match whole, cs.dropWhile Numeral.isDigit with
  | [], _ => none
  | _, [] => some ⟨whole, none⟩
  | _, '.' :: fraction =>
    if !fraction.isEmpty && fraction.all Numeral.isDigit then some ⟨whole, some fraction⟩ else none
  | _, _ => none

/-- Runs of more digits than this are not read as integers. -/
def digitLimit : Nat := 4300

def integer (digits : List Char) : Except Fault Int :=
  if digitLimit < digits.length then .error (.tooManyDigits digits.length)
  else .ok (Numeral.value digits)

/-- The byte.bit number nearest to the decimal of a whole part and a fraction. -/
def byteBit (whole fraction : List Char) : Double :=
  .ofRatio false (Numeral.value (whole ++ fraction)) (Nat.pow 10 fraction.length)

/-- The address of a number in units of a region: a number without fraction names a whole unit, one
with a fraction a bit. The fraction is a bit index and no decimal fraction: `M10.5` is bit 5 of
marker byte 10. -/
def locate (number : AddressNumber) (base unit : Int) : Except Fault ResolvedAddress :=
  match number.fraction with
  | some fraction => do
    let (byte, bit) ← (Scalar.real (byteBit number.whole fraction)).splitByteBit
    return ⟨base + byte * unit, 1, some bit, .bit⟩
  | none => do
    let n ← integer number.whole
    return ⟨base + n * unit, unit, none, .byte⟩

end AddressNumber

/-- The letter in front of a direct address. -/
inductive AddressLetter where
  | region (value : Region)
  /-- A character that counts as one of the letters without regard to case and still names no
  region. -/
  | nameless (letter : Char)
deriving DecidableEq, Repr

namespace AddressLetter

/-- The regions by their capital letters. -/
def regions : List (Char × Region) :=
  [('K', .system), ('S', .system), ('C', .counter), ('T', .timer), ('X', .input), ('Y', .output),
   ('M', .marker)]

/-- The letter that a character stands for without regard to case. The long s stands for S; the
Kelvin sign stands for K but has no capital of its own. -/
def ofChar? (c : Char) : Option AddressLetter :=
  let capital :=
    if 'a' ≤ c && c ≤ 'z' then Char.ofNat (c.toNat - 32)
    else if c.toNat = 0x17F then 'S'
    else c
  if c.toNat = 0x212A then some (.nameless c)
  else (List.lookup capital regions).map .region

end AddressLetter

namespace Project

def resolveSymbol (p : Project) (s : Symbol) : Except Fault ResolvedAddress :=
  let base := p.offsets.base s.location
  if s.type = .bit then do
    let (byte, bit) ← s.address.splitByteBit
    return ⟨base + byte, 1, some bit, .bit⟩
  else do
    return ⟨base + (← s.address.floor), s.type.width, none, s.type⟩

/-- The address that a direct address without blanks around it names, if it is one. -/
def resolveDirect (p : Project) (cs : List Char) : Except Fault (Option ResolvedAddress) :=
  let lettered : Option (AddressLetter × AddressNumber) :=
    match cs with
    | [] => none
    | c :: rest => do return (← AddressLetter.ofChar? c, ← AddressNumber.parse? rest)
  match lettered with
  | some (.nameless letter, _) => .error (.letterWithoutRegion letter)
  | some (.region region, number) => some <$> number.locate (p.offsets.base region) region.unit
  | none =>
    match AddressNumber.parse? cs with
    | some number => some <$> number.locate 0 1
    | none => .ok none

/-- The address that a text names: that of the symbol of exactly this name, or a direct address. -/
def resolveText (p : Project) (text : String) : Except Fault (Option ResolvedAddress) :=
  match p.symbol? text with
  | some symbol => some <$> p.resolveSymbol symbol
  | none => p.resolveDirect (Text.strip text)

/-- The address of a target; nothing else than text and symbols has one. -/
def resolve (p : Project) : Target → Except Fault (Option ResolvedAddress)
  | .text text => p.resolveText text
  | .symbol symbol => some <$> p.resolveSymbol symbol
  | .other => .ok none

end Project

end LadderMonitor
