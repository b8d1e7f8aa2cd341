namespace LadderMonitor

/-- The quotient `num / den` rounded to the nearest natural number, a tie to the even one. -/
def halfEven (num den : Nat) : Nat :=
  let quotient := num / den
  let rest := num % den
  if 2 * rest < den then quotient
  else if den < 2 * rest then quotient + 1
  else if quotient % 2 = 0 then quotient
  else quotient + 1

/-- The largest `e` with `2 ^ e ≤ num / den`, for positive arguments. -/
def floorLog2 (num den : Nat) : Int :=
  let guess : Int := (Nat.log2 num : Int) - Nat.log2 den
  if num * Nat.pow 2 (-guess).toNat < den * Nat.pow 2 guess.toNat then guess - 1 else guess

/-- A binary floating-point format: bits of the significand (the hidden one included) and bits of
the exponent field. A finite magnitude is written as `significand * 2 ^ scale`; its *pattern* is the
exponent and fraction fields read as one natural number, so that consecutive patterns are
consecutive magnitudes and a carry out of the significand moves into the exponent by itself. -/
structure FloatFormat where
  precision : Nat
  exponentBits : Nat

namespace FloatFormat

def binary64 : FloatFormat := ⟨53, 11⟩

def binary32 : FloatFormat := ⟨24, 8⟩

/-- The number of fractions that share one exponent field. -/
def fractions (f : FloatFormat) : Nat := Nat.pow 2 (f.precision - 1)

/-- The exponent field of infinities and of values that are no number. -/
def topExponent (f : FloatFormat) : Nat := Nat.pow 2 f.exponentBits - 1

/-- The exponent of the smallest positive magnitude. -/
def leastScale (f : FloatFormat) : Int := 3 - Nat.pow 2 (f.exponentBits - 1) - (f.precision : Int)

/-- The pattern of infinity: every finite pattern is below it. -/
def infinityPattern (f : FloatFormat) : Nat := f.topExponent * f.fractions

/-- The pattern of the magnitude nearest to `num / den`, a tie going to the even pattern; a quotient
too large for a finite magnitude gives infinity. -/
def nearest (f : FloatFormat) (num den : Nat) : Nat :=
  if num = 0 then 0
  else
    let scale := max (floorLog2 num den - ((f.precision : Int) - 1)) f.leastScale
    let significand := halfEven (num * Nat.pow 2 (-scale).toNat) (den * Nat.pow 2 scale.toNat)
    min ((scale - f.leastScale).toNat * f.fractions + significand) f.infinityPattern

def significand (f : FloatFormat) (pattern : Nat) : Nat :=
  if pattern < f.fractions then pattern else f.fractions + pattern % f.fractions

/-- The binary exponent of a finite pattern, in units of its last place. -/
def scale (f : FloatFormat) (pattern : Nat) : Int :=
  (pattern / f.fractions - 1 : Nat) + f.leastScale

end FloatFormat

end LadderMonitor
