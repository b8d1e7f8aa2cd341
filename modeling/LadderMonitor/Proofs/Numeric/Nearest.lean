import LadderMonitor.Proofs.Numeric.Conversion
import LadderMonitor.Proofs.Numeric.Overflow

namespace LadderMonitor

namespace Double

/-- A finite number to which no other one is closer. -/
structure Nearest (x : Double) (q : Rat) : Prop where
  finite : x.isFinite
  closest : ∀ y : Double, y.isFinite → |x.toRat - q| ≤ |y.toRat - q|

variable {x : Double} {negative : Bool} {num den : Nat} {q : Rat}

theorem negative_ofPattern (negative : Bool) {pattern : Nat} (hpattern : pattern < Nat.pow 2 63) :
    (ofPattern negative pattern).negative = negative := by
  have hpow : Nat.pow 2 63 = 9223372036854775808 := rfl
  have hsmall : (if negative then Nat.pow 2 63 else 0) + pattern < 2 ^ 64 := by
    rw [hpow] at hpattern ⊢
    split <;> omega
  rw [Double.negative, ofPattern, Nat.mod_eq_of_lt hpattern, UInt64.toNat_ofNat_of_lt' hsmall]
  cases negative
  · simpa using hpattern
  · simp

theorem magnitude_eq_value (x : Double) : x.magnitude = FloatFormat.binary64.value x.pattern := by
  rw [magnitude, Rat.mkRat_eq_div, FloatFormat.value, two_zpow_eq_div, scale, significand]
  push_cast
  ring

theorem magnitude_nonneg (x : Double) : 0 ≤ x.magnitude := by
  rw [magnitude_eq_value, FloatFormat.value]
  positivity

theorem abs_toRat (x : Double) : |x.toRat| = x.magnitude := by
  rw [toRat]
  split
  · rw [abs_neg, abs_of_nonneg x.magnitude_nonneg]
  · rw [abs_of_nonneg x.magnitude_nonneg]

theorem nearest_lt (num den : Nat) : FloatFormat.binary64.nearest num den < Nat.pow 2 63 :=
  Nat.lt_of_le_of_lt (FloatFormat.binary64.nearest_le_infinityPattern num den) (by decide)

theorem pattern_ofRatio (negative : Bool) (num den : Nat) :
    (ofRatio negative num den).pattern = FloatFormat.binary64.nearest num den :=
  pattern_ofPattern negative (nearest_lt num den)

theorem toRat_ofRatio (negative : Bool) (num den : Nat) :
    (ofRatio negative num den).toRat =
      if negative then -FloatFormat.binary64.value (FloatFormat.binary64.nearest num den)
      else FloatFormat.binary64.value (FloatFormat.binary64.nearest num den) := by
  have hsign : (ofRatio negative num den).negative = negative :=
    negative_ofPattern negative (nearest_lt num den)
  rw [toRat, hsign, magnitude_eq_value, pattern_ofRatio]

theorem isFinite_ofRatio_iff : (ofRatio negative num den).isFinite ↔
    FloatFormat.binary64.nearest num den < FloatFormat.binary64.infinityPattern := by
  rw [isFinite, pattern_ofRatio, decide_eq_true_iff]

theorem nearest_ofRatio (hden : 0 < den) (hfinite : (ofRatio negative num den).isFinite) :
    (ofRatio negative num den).Nearest (if negative then -(num / den) else num / den) := by
  refine ⟨hfinite, fun y _ => ?_⟩
  have hclosest := FloatFormat.nearest_closest (f := FloatFormat.binary64) (by decide) hden
    (isFinite_ofRatio_iff.1 hfinite) y.pattern
  rw [← magnitude_eq_value y, ← abs_toRat] at hclosest
  have hnonneg : (0 : Rat) ≤ num / den := by positivity
  rw [toRat_ofRatio]
  cases negative with
  | false =>
    have hy := abs_abs_sub_abs_le y.toRat (num / den)
    rw [abs_of_nonneg hnonneg] at hy
    exact hclosest.trans hy
  | true =>
    have hy := abs_abs_sub_abs_le y.toRat (-(num / den))
    rw [abs_neg, abs_of_nonneg hnonneg] at hy
    have hflip (a : Rat) : |-a - -(num / den)| = |a - num / den| := by
      rw [neg_sub_neg, abs_sub_comm]
    simp only [if_true, hflip]
    exact hclosest.trans hy

theorem natAbs_div_den (q : Rat) : (q.num.natAbs : Rat) / q.den = |q| := by
  rw [Nat.cast_natAbs, Int.cast_abs, ← Nat.abs_cast q.den, ← abs_div, Rat.num_div_den]

theorem nearest_ofRat (hfinite : (ofRat q).isFinite) : (ofRat q).Nearest q := by
  have hnearest := nearest_ofRatio q.pos hfinite
  have hq : (if decide (q.num < 0) then -((q.num.natAbs : Rat) / q.den)
      else (q.num.natAbs : Rat) / q.den) = q := by
    rw [natAbs_div_den]
    by_cases hsign : q.num < 0
    · rw [if_pos (by simpa using hsign), abs_of_neg (Rat.num_neg.1 hsign), neg_neg]
    · rw [if_neg (by simpa using hsign), abs_of_nonneg (Rat.num_nonneg.1 (not_lt.1 hsign))]
  rwa [hq] at hnearest

/-- Below a power of two the grid is as fine as 53 significant bits let it be. -/
theorem grid_le {e : Int} (hlow : -1021 ≤ e) (hnum : 0 < num) (hden : 0 < den)
    (h : (num : Rat) / den < 2 ^ e) : FloatFormat.binary64.grid num den ≤ e - 53 := by
  have hlog : floorLog2 num den < e := by
    have hpow := (floorLog2_spec hnum hden).1.trans_lt h
    exact (zpow_lt_zpow_iff_right₀ one_lt_two).1 hpow
  have hleast : FloatFormat.binary64.leastScale = -1074 := by decide
  have hprecision : (FloatFormat.binary64.precision : Int) = 53 := rfl
  rw [FloatFormat.grid, hleast, hprecision]
  omega

theorem isFinite_ofRatio_iff_lt (hden : 0 < den) :
    (ofRatio negative num den).isFinite ↔ (num : Rat) / den < 2 ^ 1024 - 2 ^ 970 := by
  rw [isFinite_ofRatio_iff, FloatFormat.nearest_lt_infinityPattern_iff (by decide) (by decide) hden,
    FloatFormat.overflow_binary64]

theorem isFinite_ofRatio (hden : 0 < den) (h : (num : Rat) / den < 2 ^ (1023 : Int)) :
    (ofRatio negative num den).isFinite := by
  have hlimit : (2 : Rat) ^ (1023 : Int) ≤ 2 ^ 1024 - 2 ^ 970 := by
    have hpow : (2 : Rat) ^ 970 ≤ 2 ^ 1023 := pow_le_pow_right₀ one_le_two (by decide)
    rw [show (1023 : Int) = (1023 : Nat) from rfl, zpow_natCast, pow_succ (2 : Rat) 1023]
    generalize (2 : Rat) ^ 970 = half at hpow ⊢
    generalize (2 : Rat) ^ 1023 = top at hpow ⊢
    linarith
  exact (isFinite_ofRatio_iff_lt hden).2 (h.trans_le hlimit)

theorem isFinite_ofRat (h : |q| < 2 ^ (1023 : Int)) : (ofRat q).isFinite := by
  refine isFinite_ofRatio q.pos ?_
  rwa [natAbs_div_den]

/-- Rounding keeps the order. -/
theorem rounded_mono {a b : Rat} (ha : |a| < 2 ^ (1023 : Int)) (hb : |b| < 2 ^ (1023 : Int))
    (hab : a ≤ b) : rounded a ≤ rounded b := by
  rcases hab.eq_or_lt with rfl | hless
  · exact le_rfl
  · have hnearA := nearest_ofRat (isFinite_ofRat ha)
    have hnearB := nearest_ofRat (isFinite_ofRat hb)
    by_contra hnot
    have hswap : rounded b < rounded a := not_le.1 hnot
    -- Of two numbers in the wrong order, one of them would be farther away than the other.
    have hA := hnearA.closest _ hnearB.finite
    have hB := hnearB.closest _ hnearA.finite
    change |rounded a - a| ≤ |rounded b - a| at hA
    change |rounded b - b| ≤ |rounded a - b| at hB
    rw [← sq_le_sq] at hA hB
    nlinarith

/-- A number nearest to a rational is within half a unit in the last place of it. -/
theorem Nearest.abs_sub_le (h : x.Nearest q) {e : Int} (hlow : -1021 ≤ e) (hhigh : e ≤ 1023)
    (hq : 0 ≤ q) (hless : q < 2 ^ e) : |x.toRat - q| ≤ 2 ^ (e - 54) := by
  have hlimit : |q| < 2 ^ (1023 : Int) := by
    rw [abs_of_nonneg hq]
    exact hless.trans_le (zpow_le_zpow_right₀ one_le_two hhigh)
  have hfinite := isFinite_ofRat hlimit
  refine (h.closest _ hfinite).trans ?_
  rcases hq.eq_or_lt with rfl | hpos
  · have hzero : (ofRat 0).toRat - 0 = 0 := by decide +kernel
    rw [hzero, abs_zero]
    positivity
  · have hnum : 0 < q.num.natAbs := Int.natAbs_pos.2 (Rat.num_pos.2 hpos).ne'
    have hsign : ¬ q.num < 0 := (Rat.num_pos.2 hpos).not_gt
    have hquotient : (q.num.natAbs : Rat) / q.den = q := by
      rw [natAbs_div_den, abs_of_nonneg hq]
    have hnear := FloatFormat.abs_value_nearest_sub_le (f := FloatFormat.binary64) (by decide) hnum
      q.pos (isFinite_ofRatio_iff.1 hfinite)
    have hvalue : (ofRat q).toRat =
        FloatFormat.binary64.value (FloatFormat.binary64.nearest q.num.natAbs q.den) := by
      rw [ofRat, toRat_ofRatio, if_neg (by simpa using hsign)]
    rw [hvalue]
    rw [hquotient] at hnear
    have hgrid := grid_le hlow hnum q.pos (hquotient.symm ▸ hless)
    calc _ ≤ (2 : Rat) ^ FloatFormat.binary64.grid q.num.natAbs q.den / 2 := hnear
      _ ≤ 2 ^ (e - 53) / 2 := by
          have := zpow_le_zpow_right₀ (one_le_two (α := Rat)) hgrid
          linarith
      _ = 2 ^ (e - 54) := by
          rw [show e - 53 = e - 54 + 1 by omega, zpow_add_one₀ two_ne_zero]
          ring

/-- A natural number that is not too large is the only number nearest to itself. -/
theorem Nearest.toRat_eq_natCast {n : Nat} (h : x.Nearest n) (hn : n < 2 ^ 53) : x.toRat = n := by
  suffices hexact : ∃ y : Double, y.isFinite ∧ y.toRat = n by
    obtain ⟨y, hfinite, hy⟩ := hexact
    have hclosest := h.closest y hfinite
    rw [hy, sub_self, abs_zero] at hclosest
    exact sub_eq_zero.1 (abs_nonpos_iff.1 hclosest)
  have hone : (n : Rat) / (1 : Nat) = n := by simp
  have hless : (n : Rat) < 2 ^ (53 : Int) := by exact_mod_cast hn
  have hfinite : (ofRatio false n 1).isFinite := by
    refine isFinite_ofRatio one_pos ?_
    rw [hone]
    exact hless.trans_le (zpow_le_zpow_right₀ one_le_two (by decide))
  refine ⟨ofRatio false n 1, hfinite, ?_⟩
  rw [toRat_ofRatio, if_neg Bool.false_ne_true]
  rcases Nat.eq_zero_or_pos n with rfl | hpos
  · decide +kernel
  · have hgrid : FloatFormat.binary64.grid n 1 ≤ 0 :=
      grid_le (by decide) hpos one_pos (hone.symm ▸ hless)
    obtain ⟨steps, hsteps⟩ := Int.eq_ofNat_of_zero_le (Int.neg_nonneg.2 hgrid)
    have hmultiple :
        (((n * 2 ^ steps : Nat) : Int) : Rat) * 2 ^ FloatFormat.binary64.grid n 1 = n := by
      rw [show FloatFormat.binary64.grid n 1 = -(steps : Int) by omega, zpow_neg, zpow_natCast]
      push_cast
      field_simp
    have hclosest := FloatFormat.closest_on_grid (f := FloatFormat.binary64) (by decide) hpos
      one_pos (isFinite_ofRatio_iff.1 hfinite) ((n * 2 ^ steps : Nat) : Int)
    rw [hmultiple, hone, sub_self, abs_zero] at hclosest
    exact sub_eq_zero.1 (abs_nonpos_iff.1 hclosest)

end Double

/-- An integer is too large from half a step above the largest floating-point number on. -/
theorem Double.ofInt?_eq_error_iff {n : Int} {fault : Fault} :
    ofInt? n = .error fault ↔ 2 ^ 1024 - 2 ^ 970 ≤ |n| ∧ fault = .integerTooLarge := by
  have hfinite : (ofInt n).isFinite ↔ ¬ (2 ^ 1024 - 2 ^ 970 ≤ |n|) := by
    rw [ofInt, isFinite_ofRatio_iff_lt one_pos, not_le, ← Int.cast_lt (R := Rat), Nat.cast_one,
      div_one, Nat.cast_natAbs]
    simp only [Int.cast_sub, Int.cast_pow, Int.cast_ofNat, Int.cast_abs]
  by_cases hlarge : 2 ^ 1024 - 2 ^ 970 ≤ |n|
  · rw [ofInt?, if_neg (fun h => hfinite.1 h hlarge), Except.error.injEq, and_iff_right hlarge]
    exact eq_comm
  · rw [ofInt?, if_pos (hfinite.2 hlarge)]
    exact ⟨nofun, fun h => absurd h.1 hlarge⟩

/-- A finite number has no four-byte form from half a step above the largest one on. -/
theorem Single.ofDouble?_eq_none_iff {x : Double} :
    ofDouble? x = none ↔ x.isFinite ∧ 2 ^ 128 - 2 ^ 103 ≤ |x.toRat| := by
  have hmagnitude : |x.toRat| = ((x.significand * Nat.pow 2 x.scale.toNat : Nat) : Rat) /
      (Nat.pow 2 (-x.scale).toNat : Nat) := by
    rw [Double.abs_toRat, Double.magnitude, Rat.mkRat_eq_div]
    push_cast
    rfl
  have hfinite : FloatFormat.binary32.nearest (x.significand * Nat.pow 2 x.scale.toNat)
      (Nat.pow 2 (-x.scale).toNat) < FloatFormat.binary32.infinityPattern ↔
      |x.toRat| < 2 ^ 128 - 2 ^ 103 := by
    rw [hmagnitude, ← FloatFormat.overflow_binary32]
    exact FloatFormat.nearest_lt_infinityPattern_iff (by decide) (by decide)
      (Nat.pow_pos (by decide))
  rw [ofDouble?, ← not_lt, ← hfinite, Double.isNaN, Double.isInfinite, Double.isFinite]
  rcases lt_trichotomy x.pattern FloatFormat.binary64.infinityPattern with hless | heq | hmore
  · simp [hless, hless.not_gt, hless.ne]
  · simp [heq]
  · simp [hmore, hmore.not_gt]

end LadderMonitor
