import LadderMonitor.Memory.Codec
import Mathlib.Data.Nat.Bitwise
import Mathlib.Tactic.Ring

namespace LadderMonitor.Codec

/-- A power of two is added to a number without that bit by setting the bit. -/
theorem testBit_two_pow_add {n bit : Nat} (hbit : n.testBit bit = false) (k : Nat) :
    (2 ^ bit + n).testBit k = (decide (k = bit) || n.testBit k) := by
  obtain ⟨q, hq⟩ : ∃ q, q = n / 2 ^ (bit + 1) := ⟨_, rfl⟩
  have hrest : n % 2 ^ bit < 2 ^ bit := Nat.mod_lt n (Nat.two_pow_pos bit)
  have hpow : 2 ^ (bit + 1) = 2 ^ bit + 2 ^ bit := by ring
  have hsplit : n = 2 ^ (bit + 1) * q + n % 2 ^ bit := by
    have hdigit : n / 2 ^ bit % 2 = 0 := by
      rw [Nat.testBit_eq_decide_div_mod_eq] at hbit
      simpa using hbit
    have hmod : n % 2 ^ (bit + 1) = n % 2 ^ bit := by
      rw [Nat.mod_pow_succ, hdigit, Nat.mul_zero, Nat.add_zero]
    rw [hq, ← hmod, Nat.div_add_mod]
  have hsum : 2 ^ bit + n = 2 ^ (bit + 1) * q + (2 ^ bit + n % 2 ^ bit) := by omega
  rw [hsum, Nat.testBit_two_pow_mul_add q (by omega)]
  conv_rhs => rw [hsplit, Nat.testBit_two_pow_mul_add q (by omega)]
  rcases Nat.lt_trichotomy k bit with hlow | rfl | hhigh
  · rw [if_pos (by omega), if_pos (by omega), Nat.testBit_two_pow_add_gt hlow]
    simp [hlow.ne]
  · rw [if_pos (by omega), Nat.testBit_two_pow_add_eq, Nat.testBit_lt_two_pow hrest]
    simp
  · rw [if_neg (by omega), if_neg (by omega)]
    simp [hhigh.ne']

variable {b : UInt8} {bit : Nat}

theorem testBit_add_two_pow (hbit : bit < 8) (hclear : testBit b bit = false) (k : Nat) :
    testBit (UInt8.ofNat (b.toNat + Nat.pow 2 bit)) k = (decide (k = bit) || testBit b k) := by
  have hbyte : b.toNat < 2 ^ 8 := b.toNat_lt
  have hsum : b.toNat + Nat.pow 2 bit = 2 ^ bit + b.toNat := by rw [Nat.pow_eq, Nat.add_comm]
  have hless : 2 ^ bit + b.toNat < 2 ^ 8 := by
    refine Nat.lt_pow_two_of_testBit _ fun i hi => ?_
    rw [testBit_two_pow_add hclear,
      Nat.testBit_lt_two_pow (hbyte.trans_le (Nat.pow_le_pow_right two_pos hi))]
    simp
    omega
  rw [testBit, hsum, UInt8.toNat_ofNat_of_lt' hless, testBit_two_pow_add hclear, testBit]

theorem testBit_sub_two_pow (hset : testBit b bit = true) (k : Nat) :
    testBit (UInt8.ofNat (b.toNat - Nat.pow 2 bit)) k = (!decide (k = bit) && testBit b k) := by
  have hbyte : b.toNat < 2 ^ 8 := b.toNat_lt
  obtain ⟨n, hn⟩ := Nat.exists_eq_add_of_le (Nat.ge_two_pow_of_testBit hset)
  have hrest : n.testBit bit = false := by
    rw [testBit, hn, Nat.testBit_two_pow_add_eq] at hset
    simpa using hset
  have hdifference : b.toNat - Nat.pow 2 bit = n := by
    rw [Nat.pow_eq]
    omega
  have hless : n < 2 ^ 8 := by omega
  rw [testBit, hdifference, UInt8.toNat_ofNat_of_lt' hless, testBit, hn, testBit_two_pow_add hrest]
  by_cases hk : k = bit <;> simp [hk, hrest]

/-- A bit has the value that is put, all others stay as they are. -/
theorem testBit_putBit (hbit : bit < 8) (value : Bool) (k : Nat) :
    testBit (putBit b bit value) k = if k = bit then value else testBit b k := by
  cases hvalue : testBit b bit with
  | true =>
    cases value with
    | true => by_cases hk : k = bit <;> simp [putBit, hvalue, hk]
    | false =>
      simp only [putBit, hvalue, Bool.true_eq_false, Bool.false_eq_true, if_false,
        testBit_sub_two_pow hvalue]
      by_cases hk : k = bit <;> simp [hk]
  | false =>
    cases value with
    | true =>
      simp only [putBit, hvalue, Bool.false_eq_true, if_true, if_false,
        testBit_add_two_pow hbit hvalue]
      by_cases hk : k = bit <;> simp [hk]
    | false => by_cases hk : k = bit <;> simp [putBit, hvalue, hk]

end LadderMonitor.Codec
