import LadderMonitor.Proofs.Numeric.Nearest

namespace LadderMonitor.Scalar

open Double

variable {x : Double} {v : Rat}

theorem view_of_finite (hfinite : x.isFinite) : x.view = .finite x.toRat := by
  have hpattern : x.pattern < FloatFormat.binary64.infinityPattern := by
    simpa [Double.isFinite] using hfinite
  have hnan : x.isNaN = false := by
    rw [Double.isNaN]
    exact decide_eq_false hpattern.not_gt
  have hinfinite : x.isInfinite = false := by
    rw [Double.isInfinite]
    exact beq_false_of_ne hpattern.ne
  rw [Double.view, hnan, hinfinite]
  rfl

theorem toRat_of_view (hview : x.view = .finite v) : v = x.toRat := by
  rw [Double.view] at hview
  split at hview
  · cases hview
  · split at hview
    · cases hview
    · exact (View.finite.inj hview).symm

theorem floor_eq_ok_iff {a : Scalar} {byte : Int} :
    a.floor = .ok byte ↔ ∃ v, a.view = .finite v ∧ byte = v.floor := by
  cases a with
  | bool value =>
    have hfloor : Rat.floor 0 = 0 ∧ Rat.floor 1 = 1 := by decide
    cases value <;> simp [view, floor, hfloor, eq_comm]
  | int value => simp [view, floor, eq_comm]
  | real x =>
    rw [floor, Double.floor, view]
    cases x.view <;> simp [eq_comm]

/-- The byte is the integer part of a value and the bit the tenths of its fraction, which an integer
has none of. -/
theorem splitByteBit_eq_ok_iff {a : Scalar} {place : Int × Int} :
    a.splitByteBit = .ok place ↔
      ∃ v, a.view = .finite v ∧ place = (v.floor, tenths (v - v.floor)) := by
  have hzero : tenths 0 = 0 := by decide +kernel
  cases a with
  | bool value =>
    have hfloor : Rat.floor 0 = 0 ∧ Rat.floor 1 = 1 := by decide
    cases value <;> simp [view, splitByteBit, floor, hfloor, hzero, eq_comm]
  | int value => simp [view, splitByteBit, floor, hzero, eq_comm]
  | real x =>
    rw [splitByteBit, view]
    cases x.view <;> simp [eq_comm]

theorem rounded_mono_small {a b : Rat} (ha : -32 ≤ a) (hab : a ≤ b) (hb : b ≤ 32) :
    rounded a ≤ rounded b := by
  have hlimit {c : Rat} (hlow : -32 ≤ c) (hhigh : c ≤ 32) : |c| < 2 ^ (1023 : Int) := by
    calc |c| ≤ 2 ^ (5 : Int) := abs_le.2 ⟨by linarith, by linarith⟩
      _ < 2 ^ (1023 : Int) := zpow_lt_zpow_right₀ one_lt_two (by decide)
  exact rounded_mono (hlimit ha (hab.trans hb)) (hlimit (ha.trans hab) hb) hab

/-- The tenths of a fraction grow with it. -/
theorem tenths_mono {a b : Rat} (ha : -1 ≤ a) (hab : a ≤ b) (hb : b ≤ 2) :
    tenths a ≤ tenths b := by
  have hlow : rounded (-1) = -1 := by decide +kernel
  have hhigh : rounded 2 = 2 := by decide +kernel
  have hlow' : rounded (-10) = -10 := by decide +kernel
  have hhigh' : rounded 20 = 20 := by decide +kernel
  have hfraction := rounded_mono_small (by linarith) hab (by linarith)
  have hleast := hlow ▸ rounded_mono_small (by norm_num) ha (by linarith)
  have hmost := hhigh ▸ rounded_mono_small (by linarith) hb (by norm_num)
  have hproduct : rounded (rounded a * 10) ≤ rounded (rounded b * 10) :=
    rounded_mono_small (by linarith) (by linarith) (by linarith)
  have hleast' : -10 ≤ rounded (rounded a * 10) :=
    hlow' ▸ rounded_mono_small (by norm_num) (by linarith) (by linarith)
  have hmost' : rounded (rounded b * 10) ≤ 20 :=
    hhigh' ▸ rounded_mono_small (by linarith) (by linarith) (by norm_num)
  exact Rat.floor_monotone (rounded_mono_small (by linarith) (by linarith) (by linarith))

/-- The digit after the point survives an error of a thirty-second. -/
theorem tenths_near_digit {digit : Nat} (hdigit : digit ≤ 7) {fraction : Rat}
    (hnear : |fraction - digit / 10| ≤ 1 / 32) : tenths fraction = digit := by
  have hends : ∀ digit : Nat, digit ≤ 7 → tenths (digit / 10 - 1 / 32) = digit ∧
      tenths (digit / 10 + 1 / 32) = digit := by decide +kernel
  obtain ⟨hlow, hhigh⟩ := hends digit hdigit
  obtain ⟨hbelow, habove⟩ := abs_le.1 hnear
  have hnonneg : (0 : Rat) ≤ digit := Nat.cast_nonneg digit
  have hmost : (digit : Rat) ≤ 7 := by exact_mod_cast hdigit
  refine le_antisymm ?_ ?_
  · exact hhigh ▸ tenths_mono (by linarith) (by linarith) (by linarith)
  · exact hlow ▸ tenths_mono (by linarith) (by linarith) (by linarith)

theorem tenths_bounds {fraction : Rat} (hlow : 0 ≤ fraction) (hhigh : fraction ≤ 1) :
    0 ≤ tenths fraction ∧ tenths fraction ≤ 10 := by
  have hzero : tenths 0 = 0 := by decide +kernel
  have hone : tenths 1 = 10 := by decide +kernel
  constructor
  · exact hzero ▸ tenths_mono (by norm_num) hlow (by linarith)
  · exact hone ▸ tenths_mono (by linarith) hhigh (by norm_num)

/-- The tenths of what a number exceeds an integer by are at most ten. -/
theorem tenths_sub_floor_bounds (v : Rat) :
    0 ≤ tenths (v - v.floor) ∧ tenths (v - v.floor) ≤ 10 := by
  have hnext : v < v.floor + 1 := Int.lt_floor_add_one v
  exact tenths_bounds (sub_nonneg.2 (Int.floor_le v)) (by linarith)

/-- A number that is nearest to `byte + bit / 10` is split into that byte and that bit, as long as
its last place is worth no more than a sixteenth. -/
theorem splitByteBit_of_nearest {byte bit : Nat} (hbyte : byte < 2 ^ 49) (hbit : bit ≤ 7)
    (hx : x.Nearest (byte + bit / 10)) : (Scalar.real x).splitByteBit = .ok (byte, bit) := by
  have hdigit : (bit : Rat) ≤ 7 := by exact_mod_cast hbit
  have hless : (byte : Rat) + bit / 10 < 2 ^ (49 : Int) := by
    have hnext : (byte : Rat) + 1 ≤ 2 ^ (49 : Int) := by exact_mod_cast hbyte
    linarith
  have hnear : |x.toRat - (byte + bit / 10)| ≤ 1 / 32 := by
    have hhalf := hx.abs_sub_le (by decide) (by decide) (by positivity) hless
    norm_num at hhalf ⊢
    exact hhalf
  obtain ⟨hbelow, habove⟩ := abs_le.1 hnear
  -- The error could only carry the number below its byte if the bit is zero: then there is none.
  have hlow : (byte : Rat) ≤ x.toRat := by
    rcases Nat.eq_zero_or_pos bit with rfl | hpos
    · have hexact : x.toRat = byte := by
        rw [Nat.cast_zero, zero_div, add_zero] at hx
        exact hx.toRat_eq_natCast (hbyte.trans (by norm_num))
      exact hexact.ge
    · have hone : (1 : Rat) ≤ bit := by exact_mod_cast hpos
      linarith
  have hfloor : x.toRat.floor = byte := by
    change ⌊x.toRat⌋ = (byte : Int)
    rw [Int.floor_eq_iff]
    refine ⟨by exact_mod_cast hlow, ?_⟩
    push_cast
    linarith
  have hfraction : |x.toRat - byte - bit / 10| ≤ 1 / 32 := by
    rwa [sub_sub]
  refine splitByteBit_eq_ok_iff.2 ⟨_, view_of_finite hx.finite, ?_⟩
  rw [hfloor, Int.cast_natCast, tenths_near_digit hbit hfraction]

/-- A fraction below three quarters is so by at least what the last place of a half is worth: finer
numbers are smaller than a half. -/
theorem fraction_le_of_lt_of_real (hview : x.view = .finite v) (hnonneg : 0 ≤ v)
    (hless : v - v.floor < 3 / 4) : v - v.floor ≤ 3 / 4 - 1 / 2 ^ 53 := by
  have hvalue : v = x.significand * 2 ^ x.scale := by
    rw [← abs_of_nonneg hnonneg, toRat_of_view hview, abs_toRat, magnitude_eq_value]
    rfl
  rcases le_or_gt (-53) x.scale with hcoarse | hfine
  · obtain ⟨steps, hsteps⟩ := Int.eq_ofNat_of_zero_le (show 0 ≤ x.scale + 53 by omega)
    have hmultiple : (v - v.floor) * 2 ^ 53 =
        ((x.significand * 2 ^ steps - v.floor * 2 ^ 53 : Int) : Rat) := by
      have hv : v * 2 ^ 53 = x.significand * 2 ^ steps := by
        rw [hvalue, mul_assoc, ← zpow_natCast 2 53, ← zpow_add₀ two_ne_zero, Nat.cast_ofNat, hsteps]
        norm_num
      rw [sub_mul, hv]
      push_cast
      ring
    have hbelow : (x.significand * 2 ^ steps - v.floor * 2 ^ 53 : Int) < 3 * 2 ^ 51 := by
      have h : (v - v.floor) * 2 ^ 53 < 3 * 2 ^ 51 := by linarith
      rw [hmultiple] at h
      exact_mod_cast h
    have hatMost : (v - v.floor) * 2 ^ 53 ≤ 3 * 2 ^ 51 - 1 := by
      rw [hmultiple]
      exact_mod_cast Int.le_sub_one_of_lt hbelow
    linarith
  · have hsmall : v < 1 / 2 := by
      have hsignificand : (x.significand : Rat) < 2 ^ 53 := by
        exact_mod_cast FloatFormat.binary64.significand_lt x.pattern
      calc v = x.significand * 2 ^ x.scale := hvalue
        _ ≤ x.significand * 2 ^ (-54 : Int) := by
            have := zpow_le_zpow_right₀ (one_le_two (α := Rat)) (show x.scale ≤ -54 by omega)
            gcongr
        _ < 2 ^ 53 * 2 ^ (-54 : Int) := by gcongr
        _ = 1 / 2 := by norm_num
    have hfloor : (0 : Rat) ≤ v.floor := by
      exact_mod_cast (Int.floor_nonneg.2 hnonneg : (0 : Int) ≤ ⌊v⌋)
    linarith

theorem fraction_le_of_lt {a : Scalar} (hview : a.view = .finite v) (hnonneg : 0 ≤ v)
    (hless : v - v.floor < 3 / 4) : v - v.floor ≤ 3 / 4 - 1 / 2 ^ 53 := by
  have hinteger (n : Int) (hn : (n : Rat) = v) : v - v.floor ≤ 3 / 4 - 1 / 2 ^ 53 := by
    rw [← hn, Rat.floor_intCast, sub_self]
    norm_num
  cases a with
  | bool value =>
    refine hinteger (if value then 1 else 0) ?_
    rw [← View.finite.inj hview]
    push_cast
    rfl
  | int value => exact hinteger value (View.finite.inj hview)
  | real x => exact fraction_le_of_lt_of_real hview hnonneg hless

/-- A number that is not negative names one of the eight bits of a byte exactly if its fraction is
below three quarters, and otherwise a bit from the ninth to the eleventh. -/
theorem tenths_legal_iff {a : Scalar} (hview : a.view = .finite v) (hnonneg : 0 ≤ v) :
    (0 ≤ tenths (v - v.floor) ∧ tenths (v - v.floor) ≤ 10) ∧
      (tenths (v - v.floor) ≤ 7 ↔ v - v.floor < 3 / 4) := by
  have hlow : 0 ≤ v - v.floor := sub_nonneg.2 (Int.floor_le v)
  have hhigh : v - v.floor < 1 := by
    have hnext : v < v.floor + 1 := Int.lt_floor_add_one v
    linarith
  refine ⟨tenths_sub_floor_bounds v, ?_, ?_⟩
  · intro hlegal
    by_contra hmore
    have hquarters : tenths (3 / 4) = 8 := by decide +kernel
    have hbeyond := tenths_mono (by norm_num) (not_lt.1 hmore) (by linarith)
    omega
  · intro hless
    have hquarters : tenths (3 / 4 - 1 / 2 ^ 53) = 7 := by decide +kernel
    rw [← hquarters]
    exact tenths_mono (by linarith) (fraction_le_of_lt hview hnonneg hless) (by norm_num)

end LadderMonitor.Scalar
