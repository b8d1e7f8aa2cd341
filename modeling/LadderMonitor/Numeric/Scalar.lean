import LadderMonitor.Numeric.Shortest

namespace LadderMonitor

/-- A value read from or written to device memory. -/
inductive Scalar where
  | bool (value : Bool)
  | int (value : Int)
  | real (value : Double)
deriving DecidableEq, Repr

namespace Scalar

/-- What a value denotes as a number; a truth value counts as zero or one. -/
def view : Scalar → Double.View
  | .bool value => .finite (if value then 1 else 0)
  | .int value => .finite value
  | .real value => value.view

/-- Whether two values are the same number, whatever their kinds; what is no number differs from
every value. -/
def sameNumber (a b : Scalar) : Bool :=
  match a.view, b.view with
  | .finite x, .finite y => x == y
  | .infinite s, .infinite t => s == t
  | _, _ => false

/-- Whether a value is another number than zero; what is no number counts as such. -/
def truth : Scalar → Bool
  | .bool value => value
  | .int value => value != 0
  | .real value => !value.isZero

/-- The text of a value in messages. -/
def text : Scalar → String
  | .bool value => if value then "True" else "False"
  | .int value => toString value
  | .real value => value.text

end Scalar

end LadderMonitor
