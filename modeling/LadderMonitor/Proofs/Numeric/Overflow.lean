import LadderMonitor.Proofs.Numeric.Rounding
import Mathlib.Tactic.NormNum

namespace LadderMonitor

theorem halfEven_lt_iff {num den n : Nat} (hden : 0 < den) (heven : n % 2 = 0) :
    halfEven num den < n ↔ 2 * num + den < 2 * (n * den) := by
  have hsplit := Nat.div_add_mod num den
  have hrest := Nat.mod_lt num hden
  rw [mul_comm] at hsplit
  rcases lt_trichotomy (num / den + 1) n with hless | heq | hmore
  · have hmul := Nat.mul_le_mul_right den hless
    rw [Nat.succ_eq_add_one, add_mul, add_mul, one_mul] at hmul
    refine iff_of_true ?_ (by omega)
    rw [halfEven]
    split_ifs <;> omega
  · -- The quotient is odd, so a tie is rounded up.
    have hscaled : n * den = num / den * den + den := by rw [← heq, add_mul, one_mul]
    have hdown : halfEven num den < n ↔ 2 * (num % den) < den := by
      rw [halfEven]
      split_ifs <;> omega
    rw [hdown]
    omega
  · have hmul := Nat.mul_le_mul_right den (Nat.lt_succ_iff.1 hmore)
    refine iff_of_false ?_ (by omega)
    rw [halfEven]
    split_ifs <;> omega

namespace FloatFormat

variable {f : FloatFormat} {num den : Nat}

/-- The least magnitude that is rounded to infinity: half a step above the largest finite one. The
next step would be twice as many fractions, an even number, so the tie is rounded up. -/
def overflow (f : FloatFormat) : Rat :=
  (2 * f.fractions - 1 / 2) * 2 ^ (f.leastScale + f.topExponent - 2)

theorem rounding_lt_iff (hden : 0 < den) :
    f.rounding num den < 2 * f.fractions ↔
      (num : Rat) / den < (2 * f.fractions - 1 / 2) * 2 ^ f.grid num den := by
  have hscale (k : Nat) : 0 < Nat.pow 2 k := Nat.pow_pos (by decide)
  have hden' : (0 : Rat) < den := Nat.cast_pos.2 hden
  have hpow : (0 : Rat) < (Nat.pow 2 (-f.grid num den).toNat : Nat) := Nat.cast_pos.2 (hscale _)
  rw [rounding, halfEven_lt_iff (Nat.mul_pos hden (hscale _)) (Nat.mul_mod_right _ _),
    two_zpow_eq_div, ← mul_div_assoc, div_lt_div_iff₀ hden' hpow,
    ← Nat.cast_lt (α := Rat)]
  push_cast
  constructor <;> intro h <;> linarith

theorem half_le_fractions (f : FloatFormat) : (1 / 2 : Rat) ≤ f.fractions := by
  have hfractions : (1 : Rat) ≤ f.fractions := by exact_mod_cast f.fractions_pos
  linarith

theorem overflow_pos (f : FloatFormat) : 0 < f.overflow := by
  have hfractions := f.half_le_fractions
  exact mul_pos (by linarith) (by positivity)

/-- Quotients on a finer grid than the coarsest one do not overflow. -/
theorem lt_overflow_of_grid_lt (hprecision : 1 ≤ f.precision) (hnum : 0 < num) (hden : 0 < den)
    (hgrid : f.grid num den + 1 ≤ f.leastScale + f.topExponent - 2) :
    (num : Rat) / den < f.overflow := by
  have hpow := zpow_le_zpow_right₀ (one_le_two (α := Rat)) hgrid
  have hfractions := f.half_le_fractions
  calc (num : Rat) / den < 2 * f.fractions * 2 ^ f.grid num den :=
        lt_significands hprecision hnum hden
    _ = f.fractions * 2 ^ (f.grid num den + 1) := by
        rw [zpow_add_one₀ two_ne_zero]
        ring
    _ ≤ f.fractions * 2 ^ (f.leastScale + f.topExponent - 2) := by gcongr
    _ ≤ f.overflow := by
        rw [overflow]
        gcongr
        linarith

/-- Quotients beyond the coarsest grid overflow. -/
theorem overflow_le_of_lt_grid (hprecision : 1 ≤ f.precision) (hnum : 0 < num) (hden : 0 < den)
    (hnormal : f.grid num den ≠ f.leastScale)
    (hgrid : f.leastScale + f.topExponent - 1 ≤ f.grid num den) : f.overflow ≤ num / den := by
  have hpow := zpow_le_zpow_right₀ (one_le_two (α := Rat)) hgrid
  have hexp : f.leastScale + (f.topExponent : Int) - 1 = f.leastScale + f.topExponent - 2 + 1 := by
    ring
  obtain ⟨hlow, -⟩ := le_rounding hprecision hnum hden hnormal
  calc f.overflow ≤ 2 * f.fractions * 2 ^ (f.leastScale + f.topExponent - 2) := by
        rw [overflow]
        gcongr
        linarith
    _ = f.fractions * 2 ^ (f.leastScale + f.topExponent - 1) := by
        rw [hexp, zpow_add_one₀ two_ne_zero]
        ring
    _ ≤ f.fractions * 2 ^ f.grid num den := by gcongr
    _ ≤ num / den := hlow

theorem nearest_lt_infinityPattern_iff (hprecision : 1 ≤ f.precision) (htop : 2 ≤ f.topExponent)
    (hden : 0 < den) :
    f.nearest num den < f.infinityPattern ↔ (num : Rat) / den < f.overflow := by
  rcases Nat.eq_zero_or_pos num with rfl | hnum
  · rw [nearest, if_pos rfl, infinityPattern]
    refine iff_of_true (Nat.mul_pos (by omega) f.fractions_pos) ?_
    simpa using f.overflow_pos
  · obtain ⟨steps, hsteps⟩ : ∃ steps : Nat, f.grid num den = steps + f.leastScale :=
      ⟨(f.grid num den - f.leastScale).toNat, by
        have hleast : f.leastScale ≤ f.grid num den := le_max_right _ _
        omega⟩
    have hnearest : f.nearest num den < f.infinityPattern ↔
        steps * f.fractions + f.rounding num den < f.topExponent * f.fractions := by
      rw [nearest_of_pos f hnum, hsteps, Int.add_sub_cancel, Int.toNat_natCast, infinityPattern,
        min_lt_iff, or_iff_left (lt_irrefl _)]
    have hrounding := rounding_le hprecision hnum hden
    have hfractions := f.fractions_pos
    rw [hnearest]
    rcases lt_trichotomy (steps + 2) f.topExponent with hfine | htight | hcoarse
    · have hmul := Nat.mul_le_mul_right f.fractions hfine
      rw [Nat.succ_eq_add_one, add_mul, add_mul, one_mul] at hmul
      exact iff_of_true (by omega) (lt_overflow_of_grid_lt hprecision hnum hden (by omega))
    · -- On the coarsest grid, the rounding decides.
      have hgrid : f.leastScale + f.topExponent - 2 = f.grid num den := by omega
      rw [overflow, hgrid, ← htight, add_mul, Nat.add_lt_add_iff_left, rounding_lt_iff hden]
    · have hmul := Nat.mul_le_mul_right f.fractions (Nat.lt_succ_iff.1 hcoarse)
      rw [add_mul, one_mul] at hmul
      obtain ⟨-, hfull⟩ := le_rounding hprecision hnum hden (by omega)
      refine iff_of_false (by omega) (not_lt.2 ?_)
      exact overflow_le_of_lt_grid hprecision hnum hden (by omega) (by omega)

theorem overflow_binary32 : binary32.overflow = 2 ^ 128 - 2 ^ 103 := by
  norm_num [overflow, fractions, leastScale, topExponent, binary32]

theorem overflow_binary64 : binary64.overflow = 2 ^ 1024 - 2 ^ 970 := by
  have hfractions : (binary64.fractions : Rat) = 2 ^ 52 := by norm_num [fractions, binary64]
  have hscale : binary64.leastScale + binary64.topExponent - 2 = 1 + (970 : Nat) := by decide
  rw [overflow, hfractions, hscale, zpow_one_add₀ two_ne_zero, zpow_natCast,
    show 1024 = 54 + 970 from rfl, pow_add]
  generalize (2 : Rat) ^ 970 = half
  ring

end FloatFormat

end LadderMonitor
