import LadderMonitor.Numeric.Rounding
import Mathlib.Algebra.Order.Field.Power
import Mathlib.Data.Rat.Floor
import Mathlib.Tactic.FieldSimp
import Mathlib.Tactic.Linarith
import Mathlib.Tactic.Positivity
import Mathlib.Tactic.Ring

namespace LadderMonitor

/-- A power of two with its exponent split as formats are computed with. -/
theorem two_zpow_eq_div (e : Int) : (2 : Rat) ^ e = Nat.pow 2 e.toNat / Nat.pow 2 (-e).toNat := by
  rcases Int.le_total 0 e with h | h
  · obtain ⟨n, rfl⟩ := Int.eq_ofNat_of_zero_le h
    simp
  · obtain ⟨n, hn⟩ := Int.eq_ofNat_of_zero_le (Int.neg_nonneg.2 h)
    obtain rfl : e = -(n : Int) := by omega
    simp [zpow_neg]

section Quotient

variable {num den : Nat}

theorem floorLog2_spec (hnum : 0 < num) (hden : 0 < den) :
    (2 : Rat) ^ floorLog2 num den ≤ num / den ∧
      (num : Rat) / den < 2 ^ (floorLog2 num den + 1) := by
  have hden' : (0 : Rat) < den := Nat.cast_pos.2 hden
  have hnumLog : (2 : Rat) ^ (num.log2 : Int) ≤ num ∧ (num : Rat) < 2 ^ ((num.log2 : Int) + 1) := by
    exact_mod_cast And.intro (Nat.log2_self_le hnum.ne') Nat.lt_log2_self
  have hdenLog : (2 : Rat) ^ (den.log2 : Int) ≤ den ∧ (den : Rat) < 2 ^ ((den.log2 : Int) + 1) := by
    exact_mod_cast And.intro (Nat.log2_self_le hden.ne') Nat.lt_log2_self
  obtain ⟨guess, hguess⟩ : ∃ guess : Int, guess = (num.log2 : Int) - den.log2 := ⟨_, rfl⟩
  -- The difference of the logarithms is off by at most one.
  have hlow : (2 : Rat) ^ (guess - 1) ≤ num / den := by
    rw [le_div_iff₀ hden']
    calc (2 : Rat) ^ (guess - 1) * den ≤ 2 ^ (guess - 1) * 2 ^ ((den.log2 : Int) + 1) := by
          have := hdenLog.2.le
          gcongr
      _ = 2 ^ (num.log2 : Int) := by
          rw [← zpow_add₀ two_ne_zero]
          congr 1
          omega
      _ ≤ num := hnumLog.1
  have hhigh : (num : Rat) / den < 2 ^ (guess + 1) := by
    rw [div_lt_iff₀ hden']
    calc (num : Rat) < 2 ^ ((num.log2 : Int) + 1) := hnumLog.2
      _ = 2 ^ (guess + 1) * 2 ^ (den.log2 : Int) := by
          rw [← zpow_add₀ two_ne_zero]
          congr 1
          omega
      _ ≤ 2 ^ (guess + 1) * den := by
          have := hdenLog.1
          gcongr
  have htest : num * Nat.pow 2 (-guess).toNat < den * Nat.pow 2 guess.toNat ↔
      (num : Rat) / den < 2 ^ guess := by
    have hpow : (0 : Rat) < (Nat.pow 2 (-guess).toNat : Nat) := by simp
    rw [two_zpow_eq_div, div_lt_div_iff₀ hden' hpow, mul_comm ((Nat.pow 2 guess.toNat : Nat) : Rat)]
    norm_cast
  rw [floorLog2, ← hguess]
  split
  · rename_i hless
    exact ⟨hlow, by simpa using htest.1 hless⟩
  · rename_i hmore
    exact ⟨not_lt.1 fun h => hmore (htest.2 h), hhigh⟩

theorem abs_halfEven_sub_le (hden : 0 < den) : |(halfEven num den : Rat) - num / den| ≤ 1 / 2 := by
  have hden' : (0 : Rat) < den := Nat.cast_pos.2 hden
  have hsplit : (num : Rat) = den * (num / den : Nat) + (num % den : Nat) := by
    exact_mod_cast (Nat.div_add_mod num den).symm
  have hquotient : (num : Rat) / den = (num / den : Nat) + (num % den : Nat) / den := by
    rw [hsplit]
    field_simp
  -- Twice the distance, in units of the denominator.
  have hnear {n : Nat}
      (h : 2 * |(n : Rat) * den - (num / den : Nat) * den - (num % den : Nat)| ≤ den) :
      |(n : Rat) - num / den| ≤ 1 / 2 := by
    have hscaled : (n : Rat) - num / den =
        (n * den - (num / den : Nat) * den - (num % den : Nat)) / den := by
      rw [hquotient]
      field_simp
      ring
    rw [hscaled, abs_div, abs_of_pos hden', div_le_iff₀ hden']
    linarith
  have hrest : num % den < den := Nat.mod_lt num hden
  have hdown (h : 2 * (num % den) ≤ den) : |((num / den : Nat) : Rat) - num / den| ≤ 1 / 2 := by
    refine hnear ?_
    rw [sub_self, zero_sub, abs_neg, Nat.abs_cast]
    exact_mod_cast h
  have hup (h : den ≤ 2 * (num % den)) : |((num / den + 1 : Nat) : Rat) - num / den| ≤ 1 / 2 := by
    refine hnear ?_
    have heq : ((num / den + 1 : Nat) : Rat) * den - (num / den : Nat) * den - (num % den : Nat) =
        ((den - num % den : Nat) : Rat) := by
      rw [Nat.cast_sub hrest.le]
      push_cast
      ring
    rw [heq, Nat.abs_cast]
    exact_mod_cast (by omega : 2 * (den - num % den) ≤ den)
  rw [halfEven]
  split
  · exact hdown (by omega)
  · split
    · exact hup (by omega)
    · split
      · exact hdown (by omega)
      · exact hup (by omega)

/-- What is at most a half away from a quotient is closest to it among the integers. -/
theorem abs_sub_le_of_half {n : Int} {q : Rat} (h : |(n : Rat) - q| ≤ 1 / 2) (k : Int) :
    |(n : Rat) - q| ≤ |(k : Rat) - q| := by
  by_cases hk : k = n
  · rw [hk]
  · have hapart : (1 : Rat) ≤ |(n : Rat) - k| := by
      exact_mod_cast Int.one_le_abs (sub_ne_zero.2 (Ne.symm hk))
    have htriangle := abs_sub_le (n : Rat) q k
    rw [abs_sub_comm q] at htriangle
    linarith

end Quotient

namespace FloatFormat

variable {f : FloatFormat} {num den : Nat}

/-- The magnitude of a finite pattern. -/
def value (f : FloatFormat) (pattern : Nat) : Rat := f.significand pattern * 2 ^ f.scale pattern

theorem fractions_pos (f : FloatFormat) : 0 < f.fractions := Nat.pow_pos (by decide)

theorem significand_lt (f : FloatFormat) (pattern : Nat) :
    f.significand pattern < 2 * f.fractions := by
  have hmod := Nat.mod_lt pattern f.fractions_pos
  rw [significand]
  split <;> omega

theorem leastScale_le_scale (f : FloatFormat) (pattern : Nat) : f.leastScale ≤ f.scale pattern := by
  rw [scale]
  omega

/-- A pattern is put together from a significand and the steps that its scale lies above the least
one. A significand that has become one bit too long carries into the exponent. -/
theorem value_compose {steps significand : Nat} (hsignificand : significand ≤ 2 * f.fractions)
    (hnormal : steps = 0 ∨ f.fractions ≤ significand) :
    f.value (steps * f.fractions + significand) = significand * 2 ^ (steps + f.leastScale) := by
  have hpos := f.fractions_pos
  by_cases hsmall : significand < f.fractions
  · obtain rfl : steps = 0 := hnormal.resolve_right (by omega)
    have hquotient : significand / f.fractions = 0 := Nat.div_eq_of_lt hsmall
    rw [value, FloatFormat.significand, scale, Nat.zero_mul, Nat.zero_add, if_pos hsmall, hquotient]
  · obtain ⟨rest, hrest⟩ := Nat.exists_eq_add_of_le (Nat.le_of_not_lt hsmall)
    by_cases hcarry : rest = f.fractions
    · have hpattern : steps * f.fractions + significand = (steps + 2) * f.fractions := by
        rw [hrest, hcarry]
        ring
      have hlarge : ¬ (steps + 2) * f.fractions < f.fractions := by
        have := Nat.le_mul_of_pos_left f.fractions (show 0 < steps + 2 by omega)
        omega
      have hscale : ((steps + 2 - 1 : Nat) : Int) + f.leastScale = (steps + f.leastScale) + 1 := by
        omega
      rw [value, FloatFormat.significand, scale, hpattern, if_neg hlarge, Nat.mul_mod_left,
        Nat.mul_div_cancel _ hpos, hscale, zpow_add_one₀ two_ne_zero, hrest, hcarry]
      push_cast
      ring
    · have hless : rest < f.fractions := by omega
      have hpattern : steps * f.fractions + significand = rest + f.fractions * (steps + 1) := by
        rw [hrest]
        ring
      have hlarge : ¬ rest + f.fractions * (steps + 1) < f.fractions := by
        have := Nat.le_mul_of_pos_right f.fractions (show 0 < steps + 1 by omega)
        omega
      have hquotient : rest / f.fractions = 0 := Nat.div_eq_of_lt hless
      rw [value, FloatFormat.significand, scale, hpattern, if_neg hlarge, Nat.add_mul_mod_self_left,
        Nat.mod_eq_of_lt hless, Nat.add_mul_div_left _ _ hpos, hquotient, hrest]
      simp

/-- The scale at which a quotient is rounded: that of the finest grid of which no magnitude with too
many bits is needed. Finer magnitudes lie below the power of two under the quotient, which is on
this grid itself. -/
def grid (f : FloatFormat) (num den : Nat) : Int :=
  max (floorLog2 num den - ((f.precision : Int) - 1)) f.leastScale

/-- The steps of its grid that a quotient is rounded to. -/
def rounding (f : FloatFormat) (num den : Nat) : Nat :=
  halfEven (num * Nat.pow 2 (-f.grid num den).toNat) (den * Nat.pow 2 (f.grid num den).toNat)

theorem nearest_of_pos (f : FloatFormat) (hnum : 0 < num) (den : Nat) :
    f.nearest num den =
      min ((f.grid num den - f.leastScale).toNat * f.fractions + f.rounding num den)
        f.infinityPattern := by
  rw [nearest, if_neg hnum.ne']
  rfl

theorem abs_rounding_sub_le (f : FloatFormat) (num : Nat) (hden : 0 < den) :
    |(f.rounding num den : Rat) - num / den / 2 ^ f.grid num den| ≤ 1 / 2 := by
  have hscaled : (num : Rat) / den / 2 ^ f.grid num den =
      (num * Nat.pow 2 (-f.grid num den).toNat : Nat) /
        (den * Nat.pow 2 (f.grid num den).toNat : Nat) := by
    rw [two_zpow_eq_div, div_div_div_eq]
    push_cast
    rfl
  rw [hscaled]
  exact abs_halfEven_sub_le (Nat.mul_pos hden (Nat.pow_pos (by decide)))

theorem fractions_eq_zpow (hprecision : 1 ≤ f.precision) :
    (f.fractions : Rat) = 2 ^ ((f.precision : Int) - 1) := by
  have hexponent : (f.precision : Int) - 1 = ((f.precision - 1 : Nat) : Int) := by omega
  rw [fractions, hexponent]
  simp

/-- A quotient has no more bits on its grid than a significand. -/
theorem lt_significands (hprecision : 1 ≤ f.precision) (hnum : 0 < num) (hden : 0 < den) :
    (num : Rat) / den < 2 * f.fractions * 2 ^ f.grid num den := by
  have hgrid : floorLog2 num den + 1 ≤ f.precision + f.grid num den := by
    rw [grid]
    omega
  rw [fractions_eq_zpow hprecision]
  calc (num : Rat) / den < 2 ^ (floorLog2 num den + 1) := (floorLog2_spec hnum hden).2
    _ ≤ 2 ^ (f.precision + f.grid num den) := zpow_le_zpow_right₀ one_le_two hgrid
    _ = 2 * 2 ^ ((f.precision : Int) - 1) * 2 ^ f.grid num den := by
        rw [← zpow_one_add₀ two_ne_zero, ← zpow_add₀ two_ne_zero]
        congr 1
        omega

/-- The quotient in steps of its grid has no more bits than a significand. -/
theorem rounding_le (hprecision : 1 ≤ f.precision) (hnum : 0 < num) (hden : 0 < den) :
    f.rounding num den ≤ 2 * f.fractions := by
  have hsteps : (num : Rat) / den / 2 ^ f.grid num den < 2 * f.fractions := by
    rw [div_lt_iff₀ (by positivity)]
    exact lt_significands hprecision hnum hden
  have hnear := abs_le.1 (f.abs_rounding_sub_le num hden)
  have hless : (f.rounding num den : Rat) < (2 * f.fractions + 1 : Nat) := by
    push_cast
    linarith
  exact Nat.lt_succ_iff.1 (Nat.cast_lt.1 hless)

/-- Above the finest grid of the format, the quotient in steps has all bits of a significand. -/
theorem le_rounding (hprecision : 1 ≤ f.precision) (hnum : 0 < num) (hden : 0 < den)
    (hgrid : f.grid num den ≠ f.leastScale) :
    (f.fractions : Rat) * 2 ^ f.grid num den ≤ num / den ∧ f.fractions ≤ f.rounding num den := by
  have hlog : ((f.precision : Int) - 1) + f.grid num den = floorLog2 num den := by
    rw [grid] at hgrid ⊢
    omega
  have hlow : (f.fractions : Rat) * 2 ^ f.grid num den ≤ num / den := by
    rw [fractions_eq_zpow hprecision, ← zpow_add₀ two_ne_zero, hlog]
    exact (floorLog2_spec hnum hden).1
  refine ⟨hlow, ?_⟩
  have hsteps : (f.fractions : Rat) ≤ num / den / 2 ^ f.grid num den := by
    rwa [le_div_iff₀ (by positivity)]
  have hnear := abs_le.1 (f.abs_rounding_sub_le num hden)
  have hless : (f.fractions : Rat) < (f.rounding num den + 1 : Nat) := by
    push_cast
    linarith
  exact Nat.lt_succ_iff.1 (Nat.cast_lt.1 hless)

/-- Unless it overflows, the pattern found stands for the quotient rounded on its grid. -/
theorem value_nearest (hprecision : 1 ≤ f.precision) (hnum : 0 < num) (hden : 0 < den)
    (hfinite : f.nearest num den < f.infinityPattern) :
    f.value (f.nearest num den) = f.rounding num den * 2 ^ f.grid num den := by
  have hnearest := f.nearest_of_pos hnum den
  have hleast : f.leastScale ≤ f.grid num den := le_max_right _ _
  have hsteps : ((f.grid num den - f.leastScale).toNat : Int) + f.leastScale = f.grid num den := by
    omega
  rw [hnearest, min_eq_left (by omega), value_compose (rounding_le hprecision hnum hden), hsteps]
  by_cases hgrid : f.grid num den = f.leastScale
  · exact .inl (by omega)
  · exact .inr (le_rounding hprecision hnum hden hgrid).2

theorem abs_value_nearest_sub_le (hprecision : 1 ≤ f.precision) (hnum : 0 < num) (hden : 0 < den)
    (hfinite : f.nearest num den < f.infinityPattern) :
    |f.value (f.nearest num den) - num / den| ≤ 2 ^ f.grid num den / 2 := by
  have hpow : (0 : Rat) < 2 ^ f.grid num den := by positivity
  have hscaled : f.value (f.nearest num den) - num / den =
      (f.rounding num den - num / den / 2 ^ f.grid num den) * 2 ^ f.grid num den := by
    rw [value_nearest hprecision hnum hden hfinite, sub_mul, div_mul_cancel₀ _ hpow.ne']
  rw [hscaled, abs_mul, abs_of_pos hpow]
  have := f.abs_rounding_sub_le num hden
  calc _ ≤ 1 / 2 * (2 : Rat) ^ f.grid num den := by gcongr
    _ = 2 ^ f.grid num den / 2 := by ring

/-- No multiple of a step of the grid is closer to the quotient. -/
theorem closest_on_grid (hprecision : 1 ≤ f.precision) (hnum : 0 < num) (hden : 0 < den)
    (hfinite : f.nearest num den < f.infinityPattern) (k : Int) :
    |f.value (f.nearest num den) - num / den| ≤ |k * 2 ^ f.grid num den - (num / den : Rat)| := by
  have hpow : (0 : Rat) < 2 ^ f.grid num den := by positivity
  have hscaled (n : Rat) : n * 2 ^ f.grid num den - num / den =
      (n - num / den / 2 ^ f.grid num den) * 2 ^ f.grid num den := by
    rw [sub_mul, div_mul_cancel₀ _ hpow.ne']
  rw [value_nearest hprecision hnum hden hfinite, hscaled, hscaled, abs_mul, abs_mul]
  have hclosest := abs_sub_le_of_half (n := f.rounding num den) (f.abs_rounding_sub_le num hden) k
  rw [Int.cast_natCast] at hclosest
  gcongr

/-- No magnitude of the format is closer to the quotient than the one found. -/
theorem nearest_closest (hprecision : 1 ≤ f.precision) (hden : 0 < den)
    (hfinite : f.nearest num den < f.infinityPattern) (pattern : Nat) :
    |f.value (f.nearest num den) - num / den| ≤ |f.value pattern - num / den| := by
  rcases Nat.eq_zero_or_pos num with rfl | hnum
  · have hzero : f.value (f.nearest 0 den) = 0 := by
      rw [nearest, if_pos rfl, value, significand, if_pos f.fractions_pos]
      simp
    rw [hzero]
    simp
  · have hpow : (0 : Rat) < 2 ^ f.grid num den := by positivity
    rcases le_or_gt (f.grid num den) (f.scale pattern) with hcoarse | hfine
    · -- A magnitude that is no finer is on the grid.
      obtain ⟨steps, hsteps⟩ : ∃ steps : Nat, f.scale pattern = steps + f.grid num den :=
        ⟨(f.scale pattern - f.grid num den).toNat, by omega⟩
      have hmultiple : f.value pattern =
          ((f.significand pattern * 2 ^ steps : Nat) : Int) * 2 ^ f.grid num den := by
        rw [value, hsteps, zpow_add₀ two_ne_zero]
        push_cast
        rw [zpow_natCast]
        ring
      rw [hmultiple]
      exact closest_on_grid hprecision hnum hden hfinite _
    · -- A finer magnitude lies below the least power of two of the grid, that below the quotient.
      have hleast : f.grid num den ≠ f.leastScale := by
        have := f.leastScale_le_scale pattern
        omega
      obtain ⟨hlow, -⟩ := le_rounding hprecision hnum hden hleast
      have hbelow : f.value pattern ≤ f.fractions * 2 ^ f.grid num den := by
        have hsignificand : (f.significand pattern : Rat) ≤ 2 * f.fractions := by
          exact_mod_cast (f.significand_lt pattern).le
        have hscale : (2 : Rat) ^ f.scale pattern ≤ 2 ^ (f.grid num den - 1) :=
          zpow_le_zpow_right₀ one_le_two (by omega)
        calc f.value pattern ≤ (2 * f.fractions) * 2 ^ (f.grid num den - 1) := by
              rw [value]
              gcongr
          _ = f.fractions * 2 ^ f.grid num den := by
              rw [zpow_sub_one₀ two_ne_zero]
              ring
      have hclosest := closest_on_grid hprecision hnum hden hfinite f.fractions
      rw [Int.cast_natCast] at hclosest
      refine hclosest.trans ?_
      rw [abs_of_nonpos (by linarith), abs_of_nonpos (by linarith)]
      linarith

end FloatFormat

end LadderMonitor
