import LadderMonitor.Numeric.Rounding

namespace LadderMonitor

/-- An eight-byte floating-point number, given by its bits: the sign, the exponent field and the
fraction. Equality is equality of bits. -/
structure Double where
  bits : UInt64
deriving DecidableEq, Repr, Inhabited

namespace Double

/-- What a number denotes: no number at all, an infinity, or an exact rational. -/
inductive View where
  | notANumber
  | infinite (negative : Bool)
  | finite (value : Rat)
deriving DecidableEq, Repr

def negative (x : Double) : Bool := Nat.pow 2 63 ≤ x.bits.toNat

/-- The exponent field and the fraction as one number. -/
def pattern (x : Double) : Nat := x.bits.toNat % Nat.pow 2 63

/-- The number with a given sign and pattern. -/
def ofPattern (negative : Bool) (pattern : Nat) : Double :=
  ⟨UInt64.ofNat ((if negative then Nat.pow 2 63 else 0) + pattern % Nat.pow 2 63)⟩

def isNaN (x : Double) : Bool := FloatFormat.binary64.infinityPattern < x.pattern

def isInfinite (x : Double) : Bool := x.pattern == FloatFormat.binary64.infinityPattern

def isFinite (x : Double) : Bool := x.pattern < FloatFormat.binary64.infinityPattern

/-- The significand of a finite number: its magnitude is `significand * 2 ^ scale`. -/
def significand (x : Double) : Nat := FloatFormat.binary64.significand x.pattern

/-- The binary exponent that goes with `significand`. -/
def scale (x : Double) : Int := FloatFormat.binary64.scale x.pattern

/-- The quotient of naturals that is the magnitude of a finite number. -/
def magnitude (x : Double) : Rat :=
  mkRat (x.significand * Nat.pow 2 x.scale.toNat) (Nat.pow 2 (-x.scale).toNat)

def toRat (x : Double) : Rat := if x.negative then -x.magnitude else x.magnitude

def view (x : Double) : View :=
  if x.isNaN then .notANumber
  else if x.isInfinite then .infinite x.negative
  else .finite x.toRat

/-- The number nearest to `num / den`, with the given sign; the sign is kept on a zero. -/
def ofRatio (negative : Bool) (num den : Nat) : Double :=
  ofPattern negative (FloatFormat.binary64.nearest num den)

def ofRat (value : Rat) : Double := ofRatio (value.num < 0) value.num.natAbs value.den

def ofInt (value : Int) : Double := ofRatio (value < 0) value.natAbs 1

def zero : Double := ⟨0⟩

def infinity (negative : Bool) : Double := ofPattern negative FloatFormat.binary64.infinityPattern

/-- The value without a number that text such as `nan` denotes. -/
def notANumber : Double := ofPattern false (FloatFormat.binary64.infinityPattern + Nat.pow 2 51)

/-- The exact value of the number nearest to a rational. -/
def rounded (value : Rat) : Rat := (ofRat value).toRat

/-- Comparison as numbers: both zeros are equal, and a value without a number differs from all. -/
def sameNumber (x y : Double) : Bool :=
  match x.view, y.view with
  | .finite a, .finite b => a == b
  | .infinite s, .infinite t => s == t
  | _, _ => false

/-- Whether a number is below zero; a negative zero is not. -/
def isBelowZero (x : Double) : Bool :=
  match x.view with
  | .finite a => a < 0
  | .infinite s => s
  | .notANumber => false

/-- Both zeros, and no other number. -/
def isZero (x : Double) : Bool := x.pattern == 0

end Double

namespace Single

/-- The number that four bytes denote; what is no number stays so, with its sign
and the upper part of its fraction, and is marked quiet. -/
def toDouble (bits : Nat) : Double :=
  let negative : Bool := Nat.pow 2 31 ≤ bits
  let pattern := bits % Nat.pow 2 31
  let f := FloatFormat.binary32
  if f.infinityPattern < pattern then
    .ofPattern negative
      (FloatFormat.binary64.infinityPattern +
        (pattern % f.fractions % Nat.pow 2 22 + Nat.pow 2 22) * Nat.pow 2 29)
  else if pattern = f.infinityPattern then .infinity negative
  else
    let scale := f.scale pattern
    .ofRatio negative (f.significand pattern * Nat.pow 2 scale.toNat) (Nat.pow 2 (-scale).toNat)

/-- The four bytes nearest to an eight-byte number, as one natural number; none when a finite number
would round to infinity. -/
def ofDouble? (x : Double) : Option Nat :=
  let sign := if x.negative then Nat.pow 2 31 else 0
  let f := FloatFormat.binary32
  if x.isNaN then
    some (sign + f.infinityPattern +
      (x.pattern % Nat.pow 2 52 / Nat.pow 2 29 % Nat.pow 2 22 + Nat.pow 2 22))
  else if x.isInfinite then some (sign + f.infinityPattern)
  else
    let pattern :=
      f.nearest (x.significand * Nat.pow 2 x.scale.toNat) (Nat.pow 2 (-x.scale).toNat)
    if pattern < f.infinityPattern then some (sign + pattern) else none

end Single

end LadderMonitor
