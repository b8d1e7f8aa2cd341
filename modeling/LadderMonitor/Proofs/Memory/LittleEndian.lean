import LadderMonitor.Memory.Codec
import Mathlib.Data.Int.ModEq
import Mathlib.Data.Nat.Digits.Defs
import Mathlib.Tactic.Ring

namespace LadderMonitor.LittleEndian

theorem value_eq_ofDigits (data : List UInt8) :
    value data = Nat.ofDigits 256 (data.map UInt8.toNat) := by
  induction data with
  | nil => rfl
  | cons b rest ih => rw [value, ih, List.map_cons, Nat.ofDigits_cons]

theorem capacity_succ (size : Nat) : capacity (size + 1) = 256 * capacity size := by
  rw [capacity, capacity, Nat.pow_eq, Nat.pow_eq, pow_succ']

theorem value_lt (data : List UInt8) : value data < capacity data.length := by
  induction data with
  | nil => exact Nat.one_pos
  | cons b rest ih =>
    have hbyte : b.toNat < 256 := b.toNat_lt
    rw [value, List.length_cons, capacity_succ]
    omega

@[simp] theorem length_bytes (size n : Nat) : (bytes size n).length = size := by
  induction size generalizing n with
  | zero => rfl
  | succ size ih => rw [bytes, List.length_cons, ih]

theorem value_bytes (size n : Nat) : value (bytes size n) = n % capacity size := by
  induction size generalizing n with
  | zero => rw [bytes, value, capacity, Nat.pow_eq, pow_zero, Nat.mod_one]
  | succ size ih =>
    have hbyte : (UInt8.ofNat (n % 256)).toNat = n % 256 :=
      UInt8.toNat_ofNat_of_lt' (Nat.mod_lt n (by decide))
    rw [bytes, value, ih, hbyte, capacity_succ, Nat.mod_mul]

theorem bytes_value (data : List UInt8) : bytes data.length (value data) = data := by
  induction data with
  | nil => rfl
  | cons b rest ih =>
    have hbyte : b.toNat < 256 := b.toNat_lt
    have hfirst : (b.toNat + 256 * value rest) % 256 = b.toNat := by omega
    have hrest : (b.toNat + 256 * value rest) / 256 = value rest := by omega
    rw [value, List.length_cons, bytes, hfirst, hrest, ih, UInt8.ofNat_toNat]

/-- The integers that have a form in a number of bytes. -/
def InRange (signed : Bool) (size : Nat) (n : Int) : Prop :=
  if signed then -2 ^ (8 * size - 1) ≤ n ∧ n < 2 ^ (8 * size - 1) else 0 ≤ n ∧ n < 2 ^ (8 * size)

variable {signed : Bool} {size : Nat} {n m : Int}

theorem capacity_eq_two_pow (size : Nat) : capacity size = 2 ^ (8 * size) := by
  rw [capacity, Nat.pow_eq, pow_mul]
  rfl

/-- Half of all forms are those of the integers below zero. -/
theorem capacity_eq_twice (hsize : 0 < size) : (capacity size : Int) = 2 * 2 ^ (8 * size - 1) := by
  have hsucc : 8 * size = 8 * size - 1 + 1 := by omega
  rw [capacity_eq_two_pow]
  push_cast
  rw [hsucc, pow_succ', Nat.add_sub_cancel]

theorem fits_iff_inRange (hsize : 0 < size) : fits signed size n ↔ InRange signed size n := by
  rw [fits, InRange]
  cases signed with
  | true =>
    rw [if_pos rfl, if_pos rfl, if_neg hsize.ne', capacity_eq_twice hsize, Bool.and_eq_true,
      decide_eq_true_iff, decide_eq_true_iff]
    constructor <;> rintro ⟨hlow, hhigh⟩ <;> constructor <;> omega
  | false =>
    rw [if_neg Bool.false_ne_true, if_neg Bool.false_ne_true, capacity_eq_two_pow,
      Bool.and_eq_true, decide_eq_true_iff, decide_eq_true_iff]
    push_cast
    rfl

/-- Integers in range with the same remainder are the same. -/
theorem eq_of_emod_eq (hsize : 0 < size) (hn : InRange signed size n) (hm : InRange signed size m)
    (h : n % capacity size = m % capacity size) : n = m := by
  have hapart : |m - n| < capacity size := by
    rw [← fits_iff_inRange hsize, fits, if_neg hsize.ne'] at hn hm
    rw [abs_lt]
    cases signed <;>
      simp only [if_true, Bool.false_eq_true, if_false, Bool.and_eq_true, decide_eq_true_iff]
        at hn hm <;>
      omega
  have hzero := Int.eq_zero_of_abs_lt_dvd (Int.ModEq.dvd h) hapart
  omega

/-- An integer that is read has the remainder of the natural number that the bytes write. -/
theorem integer_emod (signed : Bool) (data : List UInt8) :
    integer signed data % capacity data.length = value data := by
  have hless : (value data : Int) < capacity data.length := by exact_mod_cast value_lt data
  rw [integer]
  split
  · rw [Int.sub_emod_right, Int.emod_eq_of_lt (by omega) hless]
  · rw [Int.emod_eq_of_lt (by omega) hless]

theorem inRange_integer {data : List UInt8} (hdata : 0 < data.length) :
    InRange signed data.length (integer signed data) := by
  have hless := value_lt data
  rw [← fits_iff_inRange hdata, fits, integer, if_neg hdata.ne']
  cases signed <;> simp <;> omega

theorem value_ofInteger (size : Nat) (n : Int) : value (ofInteger size n) = n % capacity size := by
  have hpos : 0 < capacity size := Nat.pow_pos (by decide)
  have hnonneg : 0 ≤ n % capacity size := Int.emod_nonneg n (by omega)
  have hless : n % capacity size < capacity size := Int.emod_lt_of_pos n (by omega)
  rw [ofInteger, value_bytes, Nat.mod_eq_of_lt (by omega)]
  omega

@[simp] theorem length_ofInteger (size : Nat) (n : Int) : (ofInteger size n).length = size :=
  length_bytes size _

/-- Bytes written for an integer in range read as that integer. -/
theorem integer_ofInteger (hsize : 0 < size) (hn : InRange signed size n) :
    integer signed (ofInteger size n) = n := by
  have hread : InRange signed size (integer signed (ofInteger size n)) := by
    have hinteger : InRange signed _ (integer signed (ofInteger size n)) :=
      inRange_integer ((length_ofInteger size n).symm ▸ hsize)
    rwa [length_ofInteger] at hinteger
  refine eq_of_emod_eq hsize hread hn ?_
  have hremainder := integer_emod signed (ofInteger size n)
  rwa [length_ofInteger, value_ofInteger] at hremainder

/-- The integer that bytes read as is written by the same bytes. -/
theorem ofInteger_integer (signed : Bool) (data : List UInt8) :
    ofInteger data.length (integer signed data) = data := by
  rw [ofInteger, integer_emod, Int.toNat_natCast, bytes_value]

end LadderMonitor.LittleEndian
