import LadderMonitor.Fault

namespace LadderMonitor

namespace Double

def floor (x : Double) : Except Fault Int :=
  match x.view with
  | .finite value => .ok value.floor
  | .infinite _ => .error .integerOfInfinity
  | .notANumber => .error .integerOfNaN

/-- The integer part of a number, its fraction dropped. -/
def truncate (x : Double) : Except Fault Int :=
  match x.view with
  | .finite value => .ok (value.num.tdiv value.den)
  | .infinite _ => .error .integerOfInfinity
  | .notANumber => .error .integerOfNaN

/-- The floating-point number nearest to an integer, if a finite one is. -/
def ofInt? (value : Int) : Except Fault Double :=
  let x := ofInt value
  if x.isFinite then .ok x else .error .integerTooLarge

end Double

namespace Scalar

/-- The integer that is written for a value. -/
def toInt : Scalar → Except Fault Int
  | .bool value => .ok (if value then 1 else 0)
  | .int value => .ok value
  | .real value => value.truncate

/-- The floating-point number that is written for a value. -/
def toDouble : Scalar → Except Fault Double
  | .bool value => .ok (if value then .ofInt 1 else .zero)
  | .int value => Double.ofInt? value
  | .real value => .ok value

def floor : Scalar → Except Fault Int
  | .bool value => .ok (if value then 1 else 0)
  | .int value => .ok value
  | .real value => value.floor

/-- The bit index after the byte index in the byte.bit number of a finite value: the tenths of the
fraction, rounded to the nearest digit. The difference, the product and the sum are rounded in turn;
a fraction close to one gives ten. -/
def tenths (fraction : Rat) : Int :=
  (Double.rounded (Double.rounded (Double.rounded fraction * 10) + 1 / 2)).floor

/-- Splits a byte.bit number: `10.5` is bit 5 of byte 10. -/
def splitByteBit : Scalar → Except Fault (Int × Int)
  | .real x =>
    match x.view with
    | .finite value => .ok (value.floor, tenths (value - value.floor))
    | .infinite _ => .error .integerOfInfinity
    | .notANumber => .error .integerOfNaN
  | value => do return (← value.floor, 0)

end Scalar

end LadderMonitor
