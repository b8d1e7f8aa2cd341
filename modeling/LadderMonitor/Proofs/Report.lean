import LadderMonitor.Plant.Address
import Mathlib.Algebra.Order.Ring.Int
import Mathlib.Tactic.NormNum

namespace LadderMonitor

/-- Whether an integer has more digits than can be written out. -/
def IsLong (n : Int) : Prop := 10 ^ 4300 ≤ |n|

theorem IsLong.lt_abs {n : Int} (h : IsLong n) : (4300 : Nat) < |n| := by
  unfold IsLong at h
  generalize 4300 = digits at h ⊢
  have hdigits : (digits : Int) < 10 ^ digits := by exact_mod_cast Nat.lt_pow_self (by decide)
  exact hdigits.trans_le h

theorem not_isLong_of_small {n : Int} (hlow : 0 ≤ n) (hhigh : n ≤ 4300) : ¬ IsLong n := by
  intro hlong
  have hdigits := hlong.lt_abs
  rw [abs_of_nonneg hlow] at hdigits
  omega

namespace Fault

theorem isShort_iff {n : Int} : isShort n ↔ ¬ IsLong n := by
  unfold isShort IsLong
  generalize 4300 = digits
  rw [decide_eq_true_iff, not_le, Int.abs_eq_natAbs, Nat.pow_eq]
  exact_mod_cast Iff.rfl

theorem not_reported {fault : Fault} (h : fault.isAccess = false) : ¬ fault.Reported :=
  fun hreported => Bool.false_ne_true (h.symm.trans hreported.access)

theorem reported_doesNotFit_iff {value : Scalar} {type : ValueType} :
    (doesNotFit value type).Reported ↔ ∀ n, value = .int n → ¬ IsLong n := by
  constructor
  · rintro ⟨-, hwords⟩ n rfl
    exact isShort_iff.1 hwords
  · intro h
    refine ⟨rfl, ?_⟩
    cases value with
    | int n => exact isShort_iff.2 (h n rfl)
    | bool => rfl
    | real => rfl

theorem reported_outsideMemory_iff {size address : Int} {length : Nat} :
    (outsideMemory size address length).Reported ↔ ¬ (IsLong size ∨ IsLong address) := by
  have hwords : (outsideMemory size address length).isWordable ↔
      isShort size ∧ isShort address := by
    rw [isWordable, Bool.and_eq_true]
  rw [not_or, ← isShort_iff, ← isShort_iff, ← hwords]
  exact ⟨Reported.wordable, fun h => ⟨rfl, h⟩⟩

/-- A failure with one integer in its wording is reported unless the integer is too long. -/
theorem reported_iff_not_isLong {fault : Fault} {n : Int} (haccess : fault.isAccess)
    (hwords : fault.isWordable = isShort n) : fault.Reported ↔ ¬ IsLong n := by
  rw [← isShort_iff, ← hwords]
  exact ⟨Reported.wordable, fun h => ⟨haccess, h⟩⟩

theorem reported_bitOutOfRange_iff {bit : Int} : (bitOutOfRange bit).Reported ↔ ¬ IsLong bit :=
  reported_iff_not_isLong rfl rfl

theorem reported_tooFewBytes_iff {size : Int} {type : ValueType} {got : Nat} :
    (tooFewBytes size type got).Reported ↔ ¬ IsLong size :=
  reported_iff_not_isLong rfl rfl

theorem reported_floatWidth_iff {size : Int} : (floatWidth size).Reported ↔ ¬ IsLong size :=
  reported_iff_not_isLong rfl rfl

end Fault

instance (n : Int) : Decidable (IsLong n) :=
  decidable_of_iff (¬ Fault.isShort n) (by rw [Fault.isShort_iff, not_not])

/-- Whether the size and the bit index of an address are short enough to be written out. -/
structure ResolvedAddress.Brief (r : ResolvedAddress) : Prop where
  size : ¬ IsLong r.size
  bit : ∀ bit, r.bit = some bit → ¬ IsLong bit

instance (r : ResolvedAddress) : Decidable r.Brief :=
  decidable_of_iff (¬ IsLong r.size ∧ ∀ bit ∈ r.bit, ¬ IsLong bit)
    ⟨fun h => ⟨h.1, h.2⟩, fun h => ⟨h.size, h.bit⟩⟩

namespace ResolvedAddress

/-- Whether an address takes some bytes and can be written out. -/
structure Plain (r : ResolvedAddress) : Prop extends r.Brief where
  pos : 0 < r.size
  address : ¬ IsLong r.address

instance (r : ResolvedAddress) : Decidable r.Plain :=
  decidable_of_iff (r.Brief ∧ 0 < r.size ∧ ¬ IsLong r.address)
    ⟨fun h => ⟨h.1, h.2.1, h.2.2⟩, fun h => ⟨h.toBrief, h.pos, h.address⟩⟩

/-- An address of a few bytes, with a bit index of at most ten if there is one. -/
structure Narrow (r : ResolvedAddress) : Prop where
  pos : 0 < r.size
  size : r.size ≤ 9
  bit : ∀ bit, r.bit = some bit → 0 ≤ bit ∧ bit ≤ 10

theorem Narrow.brief {r : ResolvedAddress} (h : r.Narrow) : r.Brief where
  size := not_isLong_of_small h.pos.le (h.size.trans (by decide))
  bit bit hbit :=
    have ⟨hlow, hhigh⟩ := h.bit bit hbit
    not_isLong_of_small hlow (hhigh.trans (by decide))

end ResolvedAddress

end LadderMonitor
