import LadderMonitor.Numeric.Conversion
import LadderMonitor.Text.Blank
import LadderMonitor.Yaml.Schema
import LadderMonitor.Yaml.Value

namespace LadderMonitor.Yaml

namespace Content

/-- The digits that underscores separate. -/
def withoutUnderscores (text : String) : List Char := text.toList.filter (· ≠ '_')

/-- A sign at the front of a text that must not be empty. -/
def splitSign : List Char → Except Problem (Bool × List Char)
  | [] => .error (.fault .emptyNumeral)
  | c :: rest =>
    if c = '-' then .ok (true, rest)
    else if c = '+' then .ok (false, rest)
    else .ok (false, c :: rest)

/-- Runs of decimal digits longer than this are not read. -/
def digitLimit : Nat := 4300

def decimal (cs : List Char) : Except Problem Int :=
  match Numeral.sign (Text.trimBoth Text.isBlank cs) with
  | (negative, digits) =>
    if digits.isEmpty || !digits.all Numeral.isDigit then
      .error (.fault (.integerText 10 (String.ofList cs)))
    else if digitLimit < digits.length then .error (.fault (.tooManyDigits digits.length))
    else .ok (if negative then -(Numeral.value digits : Int) else Numeral.value digits)

def inBase (base : Nat) (cs : List Char) : Except Problem Int :=
  if cs.isEmpty || !cs.all (fun c => isHexDigit c && hexDigitValue c < base) then
    .error (.fault (.integerText base (String.ofList cs)))
  else .ok (cs.foldl (fun n c => base * n + hexDigitValue c) 0 : Nat)

/-- The number that parts write in base sixty, the last being the units. -/
def sixtieths (parts : List Int) : Int := parts.foldl (fun n part => 60 * n + part) 0

/-- A number without sign. -/
def magnitude (cs : List Char) : Except Problem Int :=
  match cs with
  | [] => .error (.fault .emptyNumeral)
  | ['0'] => .ok 0
  | '0' :: 'b' :: digits => inBase 2 digits
  | '0' :: 'x' :: digits => inBase 16 digits
  | '0' :: digits => inBase 8 ('0' :: digits)
  | _ =>
    if cs.contains ':' then sixtieths <$> (Schema.colonParts cs).mapM decimal
    else decimal cs

def int (text : String) : Except Problem Int := do
  let (negative, cs) ← splitSign (withoutUnderscores text)
  let n ← magnitude cs
  return if negative then -n else n

/-- The number of a text in base ten. -/
def decimalReal (cs : List Char) : Except Problem Double :=
  match Numeral.real? (Text.trimBoth Text.isBlank cs) with
  | some x => .ok x
  | none => .error (.fault (.realText (String.ofList cs)))

/-- The sum of parts with rising powers of sixty, the first being the units; every product and every
sum is rounded. -/
def sixtiethsReal : Rat → Nat → List Double → Except Problem Double
  | sum, _, [] => .ok (.ofRat sum)
  | sum, weight, part :: rest =>
    match part.view with
    | .finite value =>
      sixtiethsReal (Double.rounded (sum + Double.rounded (value * Double.rounded weight)))
        (60 * weight) rest
    | _ => .ok part

/-- A floating-point number without sign. -/
def magnitudeReal (cs : List Char) : Except Problem Double :=
  if cs == ".inf".toList then .ok (.infinity false)
  else if cs == ".nan".toList then .ok Double.notANumber
  else if cs.contains ':' then do
    let parts ← (Schema.colonParts cs).mapM decimalReal
    sixtiethsReal 0 1 parts.reverse
  else decimalReal cs

def real (text : String) : Except Problem Double := do
  let (negative, cs) ← splitSign ((withoutUnderscores text).map Char.toLower)
  let x ← magnitudeReal cs
  return if negative then .ofPattern (!x.negative) x.pattern else x

def truthWords : List (String × Bool) :=
  [("yes", true), ("no", false), ("true", true), ("false", false), ("on", true), ("off", false)]

def bool (text : String) : Except Problem Bool :=
  let word := String.ofList (text.toList.map Char.toLower)
  match truthWords.lookup word with
  | some value => .ok value
  | none => .error (.fault (.truthText word))

def daysIn (year month : Nat) : Nat :=
  if month = 2 then
    if year % 4 = 0 && (year % 100 ≠ 0 || year % 400 = 0) then 29 else 28
  else if month = 4 || month = 6 || month = 9 || month = 11 then 30
  else 31

def dateFlaw? (t : Schema.Timestamp) : Option DateFlaw :=
  if t.year = 0 then some (.year t.year)
  else if t.month = 0 || 12 < t.month then some .month
  else if t.day = 0 || daysIn t.year t.month < t.day then some .day
  else match t.clock with
    | none => none
    | some (hour, minute, second) =>
      if 23 < hour then some .hour
      else if 59 < minute then some .minute
      else if 59 < second then some .second
      else none

/-- A date, or a moment if there is a time of day. -/
def timestamp (text : String) : Except Problem Value :=
  match Schema.timestamp? text.toList with
  | none => .error (.fault .dateText)
  | some t =>
    match dateFlaw? t with
    | some flaw => .error (.fault (.noSuchDate flaw))
    | none => .ok (if t.clock.isSome then .moment else .date)

/-- The value of a character of the base64 alphabet. -/
def base64Value? (c : Char) : Option Nat :=
  if c.isUpper then some (c.toNat - 65)
  else if c.isLower then some (c.toNat - 71)
  else if c.isDigit then some (c.toNat + 4)
  else if c = '+' then some 62
  else if c = '/' then some 63
  else none

/-- The bytes of a group of base64 values; four values make three bytes. -/
def groupBytes : List Nat → List UInt8
  | [a, b, c, d] =>
    [UInt8.ofNat (4 * a + b / 16), UInt8.ofNat (16 * b + c / 4), UInt8.ofNat (64 * c + d)]
  | [a, b, c] => [UInt8.ofNat (4 * a + b / 16), UInt8.ofNat (16 * b + c / 4)]
  | [a, b] => [UInt8.ofNat (4 * a + b / 16)]
  | _ => []

/-- The bytes that base64 writes. Characters outside the alphabet do not count. Padding that
completes a group ends the bytes; a group must be complete. -/
def base64From (group : List Nat) (padding : Nat) : List Char → Option (List UInt8)
  | [] => if group.isEmpty then some [] else none
  | c :: rest =>
    if c = '=' then
      if group.length < 2 then base64From group padding rest
      else if 4 ≤ group.length + padding + 1 then some (groupBytes group)
      else base64From group (padding + 1) rest
    else match base64Value? c with
      | none => base64From group padding rest
      | some v =>
        if group.length = 3 then
          (base64From [] 0 rest).map fun bytes => groupBytes (group ++ [v]) ++ bytes
        else base64From (group ++ [v]) 0 rest

def binary (text : String) : Except Problem (List UInt8) :=
  let cs := text.toList
  if cs.any (128 ≤ ·.toNat) then .error .malformed
  else match base64From [] 0 cs with
    | some bytes => .ok bytes
    | none => .error .malformed

def value (tag : Tag) (text : String) : Except Problem Value :=
  match tag with
  | .null => .ok .null
  | .bool => .bool <$> bool text
  | .int => .int <$> int text
  | .real => .real <$> real text
  | .binary => .bytes <$> binary text
  | .timestamp => timestamp text
  | .text => .ok (.text text)
  | _ => .error .malformed

end Content

end LadderMonitor.Yaml
