import LadderMonitor.Numeric.Double

namespace LadderMonitor

/-- A positive decimal `digits * 10 ^ exponent`. -/
structure Decimal where
  digits : Nat
  exponent : Int
deriving DecidableEq, Repr

namespace Decimal

/-- Compares `a * 10 ^ i` with `n * 2 ^ j`. -/
def compareBinary (a : Nat) (i : Int) (n : Nat) (j : Int) : Ordering :=
  compare (a * Nat.pow 10 i.toNat * Nat.pow 2 (-j).toNat)
    (n * Nat.pow 2 j.toNat * Nat.pow 10 (-i).toNat)

/-- Whether a decimal lies in the interval that rounds to the finite number `x`. Its ends lie half a
unit above and half a unit (below a power of two: a quarter) below the magnitude, and belong to it
exactly when the significand is even. -/
def readsBack (x : Double) (d : Decimal) : Bool :=
  let m := x.significand
  let q := x.scale - 2
  let narrow := x.pattern % FloatFormat.binary64.fractions == 0 &&
    2 * FloatFormat.binary64.fractions ≤ x.pattern
  let low := compareBinary d.digits d.exponent (4 * m - (if narrow then 1 else 2)) q
  let high := compareBinary d.digits d.exponent (4 * m + 2) q
  let closed := m % 2 == 0
  (low == .gt || (closed && low == .eq)) && (high == .lt || (closed && high == .eq))

/-- The least `k` with `m * 2 ^ q < 10 ^ k`, for positive `m`, sought upward from a lower bound. -/
def leadingExponent (m : Nat) (q : Int) : Nat → Int → Int
  | 0, k => k
  | fuel + 1, k => if compareBinary 1 k m q = .gt then k else leadingExponent m q fuel (k + 1)

/-- The multiple of `10 ^ e` just below the magnitude of `x`, in units of `10 ^ e`. -/
def below (x : Double) (e : Int) : Nat :=
  x.significand * Nat.pow 2 x.scale.toNat * Nat.pow 10 (-e).toNat /
    (Nat.pow 2 (-x.scale).toNat * Nat.pow 10 e.toNat)

/-- The neighbour of `x` on the grid of multiples of `10 ^ e` that reads back; of two the nearer,
and the even one when both are equally near. -/
def onGrid? (x : Double) (e : Int) : Option Decimal :=
  let n := below x e
  let down : Decimal := ⟨n, e⟩
  let up : Decimal := ⟨n + 1, e⟩
  match readsBack x down && n != 0, readsBack x up with
  | true, true =>
    match compareBinary (2 * n + 1) e (2 * x.significand) x.scale with
    | .gt => some down
    | .lt => some up
    | .eq => some (if n % 2 = 0 then down else up)
  | true, false => some down
  | false, true => some up
  | false, false => none

/-- Moves trailing zeros of the digits into the exponent. -/
def stripZeros : Nat → Decimal → Decimal
  | 0, d => d
  | fuel + 1, d =>
    if d.digits % 10 = 0 && d.digits != 0 then stripZeros fuel ⟨d.digits / 10, d.exponent + 1⟩
    else d

/-- The shortest decimal that reads back as the positive finite number `x`. -/
def shortest (x : Double) : Decimal :=
  let top := leadingExponent x.significand x.scale 700 (-330)
  let found := (List.range 17).findSome? fun (i : Nat) => onGrid? x (top - 1 - (i : Nat))
  stripZeros 20 (found.getD ⟨below x (top - 17), top - 17⟩)

/-- Digits of a decimal, most significant first. -/
def digitChars (d : Decimal) : List Char := Nat.toDigits 10 d.digits

/-- A decimal with a point inside it or behind it, at least one digit on each side. -/
def positional (digits : List Char) (point : Int) : List Char :=
  if point ≤ 0 then ['0', '.'] ++ List.replicate (-point).toNat '0' ++ digits
  else
    let whole := digits.take point.toNat
    let rest := digits.drop point.toNat
    whole ++ List.replicate (point.toNat - whole.length) '0' ++
      '.' :: (if rest.isEmpty then ['0'] else rest)

/-- A decimal with one digit before the point and a signed exponent of at least two digits. -/
def scientific (digits : List Char) (exponent : Int) : List Char :=
  let tail := digits.drop 1
  let size := Nat.toDigits 10 exponent.natAbs
  digits.take 1 ++ (if tail.isEmpty then [] else '.' :: tail) ++
    'e' :: (if exponent < 0 then '-' else '+') ::
      (if size.length < 2 then '0' :: size else size)

/-- Positional between `10 ^ -4` and `10 ^ 16`, otherwise with an exponent. -/
def layout (d : Decimal) : List Char :=
  let digits := d.digitChars
  let exponent := d.exponent + digits.length - 1
  if -4 ≤ exponent && exponent < 16 then positional digits (exponent + 1)
  else scientific digits exponent

end Decimal

/-- The text of a number: the shortest decimal that reads back, `inf` or `nan`. -/
def Double.text (x : Double) : String :=
  if x.isNaN then "nan"
  else
    let sign := if x.negative then "-" else ""
    if x.isInfinite then sign ++ "inf"
    else if x.isZero then sign ++ "0.0"
    else sign ++ String.ofList (Decimal.shortest x).layout

end LadderMonitor
