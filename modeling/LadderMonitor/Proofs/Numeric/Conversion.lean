import LadderMonitor.Numeric.Conversion

namespace LadderMonitor

namespace FloatFormat

theorem nearest_le_infinityPattern (f : FloatFormat) (num den : Nat) :
    f.nearest num den ≤ f.infinityPattern := by
  unfold nearest
  split
  · exact Nat.zero_le _
  · exact Nat.min_le_right _ _

end FloatFormat

namespace Double

/-- Why a number has no integer part, if it has none. -/
def View.flaw? : View → Option Fault
  | .finite _ => none
  | .infinite _ => some .integerOfInfinity
  | .notANumber => some .integerOfNaN

theorem pattern_ofPattern (negative : Bool) {pattern : Nat} (hpattern : pattern < Nat.pow 2 63) :
    (ofPattern negative pattern).pattern = pattern := by
  have hsmall : (if negative then Nat.pow 2 63 else 0) + pattern < 2 ^ 64 := by
    have hpow : Nat.pow 2 63 = 9223372036854775808 := rfl
    rw [hpow] at hpattern ⊢
    split <;> omega
  rw [Double.pattern, ofPattern, Nat.mod_eq_of_lt hpattern,
    UInt64.toNat_ofNat_of_lt' hsmall]
  split
  · rw [Nat.add_mod_left, Nat.mod_eq_of_lt hpattern]
  · rw [Nat.zero_add, Nat.mod_eq_of_lt hpattern]

/-- A quotient of naturals is a number, if perhaps an infinite one. -/
theorem isNaN_ofRatio (negative : Bool) (num den : Nat) :
    (ofRatio negative num den).isNaN = false := by
  have hnearest := FloatFormat.binary64.nearest_le_infinityPattern num den
  have hlimit : FloatFormat.binary64.infinityPattern < Nat.pow 2 63 := by decide
  rw [isNaN, ofRatio, pattern_ofPattern negative (Nat.lt_of_le_of_lt hnearest hlimit)]
  simpa using hnearest

theorem flaw?_view_ofRatio (negative : Bool) (num den : Nat) :
    (ofRatio negative num den).view.flaw? =
      if (ofRatio negative num den).isInfinite then some .integerOfInfinity else none := by
  rw [view, isNaN_ofRatio, if_neg Bool.false_ne_true]
  split <;> rfl

end Double

namespace Scalar

theorem floor_eq_error_iff {x : Scalar} {fault : Fault} :
    x.floor = .error fault ↔ x.view.flaw? = some fault := by
  cases x with
  | bool value => simp [floor, view, Double.View.flaw?]
  | int value => simp [floor, view, Double.View.flaw?]
  | real value =>
    rw [floor, Double.floor, view]
    cases value.view <;> simp [Double.View.flaw?]

theorem toInt_eq_error_iff {x : Scalar} {fault : Fault} :
    x.toInt = .error fault ↔ x.view.flaw? = some fault := by
  cases x with
  | bool value => simp [toInt, view, Double.View.flaw?]
  | int value => simp [toInt, view, Double.View.flaw?]
  | real value =>
    rw [toInt, Double.truncate, view]
    cases value.view <;> simp [Double.View.flaw?]

theorem splitByteBit_eq_error_iff {x : Scalar} {fault : Fault} :
    x.splitByteBit = .error fault ↔ x.view.flaw? = some fault := by
  cases x with
  | bool value => simp [splitByteBit, floor, view, Double.View.flaw?, bind, Except.bind, pure,
      Except.pure]
  | int value => simp [splitByteBit, floor, view, Double.View.flaw?, bind, Except.bind, pure,
      Except.pure]
  | real value =>
    rw [splitByteBit, view]
    cases value.view <;> simp [Double.View.flaw?]

end Scalar

end LadderMonitor
