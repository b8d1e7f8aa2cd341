import LadderMonitor.Numeric.Double

namespace LadderMonitor

/-- The number nearest to `digits * 10 ^ exponent`, with a sign. Exponents far beyond the range of
the format are decided without computing the power. -/
def Double.ofDecimal (negative : Bool) (digits : Nat) (exponent : Int) : Double :=
  if digits = 0 then .ofPattern negative 0
  else if 400 < exponent then .infinity negative
  else if exponent < -400 - (Nat.log2 digits : Int) then .ofPattern negative 0
  else .ofRatio negative (digits * Nat.pow 10 exponent.toNat) (Nat.pow 10 (-exponent).toNat)

namespace Numeral

def isDigit (c : Char) : Bool := '0' ≤ c && c ≤ '9'

/-- The number that a run of digits writes. -/
def value (digits : List Char) : Nat :=
  digits.foldl (fun n c => 10 * n + (c.toNat - 48)) 0

/-- The digits at the front of a text that has just had a digit, single underscores between digits
left out, and what follows them. -/
def moreDigits : List Char → List Char × List Char
  | '_' :: c :: rest =>
    if isDigit c then
      let (digits, tail) := moreDigits rest
      (c :: digits, tail)
    else ([], '_' :: c :: rest)
  | c :: rest =>
    if isDigit c then
      let (digits, tail) := moreDigits rest
      (c :: digits, tail)
    else ([], c :: rest)
  | [] => ([], [])

/-- The digits at the front of a text, single underscores between digits left out. -/
def digitRun : List Char → List Char × List Char
  | c :: rest =>
    if isDigit c then
      let (digits, tail) := moreDigits rest
      (c :: digits, tail)
    else ([], c :: rest)
  | [] => ([], [])

/-- A sign at the front of a text: whether it is a minus, and what follows. -/
def sign : List Char → Bool × List Char
  | '-' :: rest => (true, rest)
  | '+' :: rest => (false, rest)
  | cs => (false, cs)

/-- A whole number: a sign, digits, and perhaps a point with nothing but zeros behind it. -/
def integer? (cs : List Char) : Option Int :=
  let (negative, rest) := sign cs
  let (digits, tail) := digitRun rest
  let whole := match tail with
    | [] => true
    | '.' :: zeros => !zeros.isEmpty && zeros.all (· == '0')
    | _ => false
  if !digits.isEmpty && whole then
    some (if negative then -(value digits : Int) else value digits)
  else none

def exponent? : List Char → Option Int
  | [] => some 0
  | c :: rest =>
    if c = 'e' || c = 'E' then
      let (negative, body) := sign rest
      let (digits, tail) := digitRun body
      if digits.isEmpty || !tail.isEmpty then none
      else some (if negative then -(value digits : Int) else value digits)
    else none

/-- A number without sign: digits with a point in or around them, and perhaps an exponent. -/
def unsignedReal? (negative : Bool) (cs : List Char) : Option Double := do
  let (whole, rest) := digitRun cs
  let (places, tail) := match rest with
    | '.' :: more => digitRun more
    | _ => ([], rest)
  if whole.isEmpty && places.isEmpty then none
  let exponent ← exponent? tail
  return .ofDecimal negative (value (whole ++ places)) (exponent - places.length)

/-- A floating-point number, an infinity or the value without a number, in any letter case. -/
def real? (cs : List Char) : Option Double :=
  let (negative, body) := sign cs
  let word := String.ofList (body.map Char.toLower)
  if word == "inf" || word == "infinity" then some (.infinity negative)
  else if word == "nan" then
    some (.ofPattern negative Double.notANumber.pattern)
  else unsignedReal? negative body

end Numeral

end LadderMonitor
