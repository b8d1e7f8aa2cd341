import LadderMonitor.Memory.Codec
import LadderMonitor.Proofs.Memory.Image
import LadderMonitor.Proofs.Report
import Mathlib.Tactic.MkIffOfInductiveProp

namespace LadderMonitor

namespace Bytes

variable {memory : Bytes} {address size : Int}

theorem window_of_inside (hstart : 0 ≤ address) (hstop : address + size ≤ memory.size) :
    memory.window address size = .ok (memory.slice address (address + size)) := by
  have hinside : ¬ (address < 0 || memory.size < address + size) = true := by
    simpa using ⟨hstart, hstop⟩
  rw [window, if_neg hinside]

theorem window_of_outside (houtside : ¬ (0 ≤ address ∧ address + size ≤ memory.size)) :
    memory.window address size = .error (.outsideMemory size address memory.size) := by
  have hnot : (address < 0 || memory.size < address + size) = true := by
    simp only [Bool.or_eq_true, decide_eq_true_eq]
    omega
  rw [window, if_pos hnot]

theorem le_size_slice (hstart : 0 ≤ address) (hstop : address + size ≤ memory.size) :
    size ≤ (memory.slice address (address + size)).size := by
  by_cases hsize : 0 ≤ size
  · rw [slice_eq_ofImage memory hstart hsize hstop, size_ofImage]
    omega
  · omega

end Bytes

namespace Codec

/-- Whether the bit index names a bit of a byte, or the width is one of the type. -/
@[mk_iff]
structure Legal (r : ResolvedAddress) : Prop where
  bit : ∀ bit, r.bit = some bit → 0 ≤ bit ∧ bit ≤ 7
  width : r.bit = none → r.type.isReal → r.size = 4 ∨ r.size = 8

/-- Whether a value lies inside an image and is legal. -/
structure Legible (memory : Bytes) (r : ResolvedAddress) : Prop where
  start : 0 ≤ r.address
  stop : r.address + r.size ≤ memory.size
  legal : Legal r

variable {memory data : Bytes} {r : ResolvedAddress}

theorem checkBit_of_legal {bit : Int} (hbit : 0 ≤ bit ∧ bit ≤ 7) :
    checkBit bit = .ok bit.toNat := by
  rw [checkBit, if_pos (by simpa using hbit)]

theorem checkBit_of_not_legal {bit : Int} (hbit : ¬ (0 ≤ bit ∧ bit ≤ 7)) :
    checkBit bit = .error (.bitOutOfRange bit) := by
  rw [checkBit, if_neg (by simpa using hbit)]

theorem firstByte_eq_ok_or (bytes : Bytes) :
    (∃ b, firstByte bytes = .ok b) ∨ firstByte bytes = .error .noBytes ∧ bytes.size = 0 := by
  rw [firstByte]
  cases hfirst : bytes[0]? with
  | none => exact .inr ⟨rfl, by simpa using hfirst⟩
  | some b => exact .inl ⟨b, rfl⟩

/-- A value can be decoded from enough bytes, unless it needs a byte and has none. -/
theorem decode_of_legal (h : Legal r) (hsize : r.size ≤ data.size) :
    (∃ value, decode r data = .ok value) ∨ decode r data = .error .noBytes ∧ r.size ≤ 0 := by
  have hempty (hnone : (data.slice 0 r.size).size = 0) : r.size ≤ 0 := by
    have hle : r.size ≤ (data.slice 0 (0 + r.size)).size :=
      Bytes.le_size_slice (Int.le_refl 0) (by simpa using hsize)
    rw [Int.zero_add] at hle
    omega
  rw [decode, if_neg (by omega)]
  cases hbit : r.bit with
  | some bit =>
    simp only [checkBit_of_legal (h.bit bit hbit), bind, Except.bind]
    obtain ⟨b, hb⟩ | ⟨hb, hnone⟩ := firstByte_eq_ok_or (data.slice 0 r.size)
    · exact .inl ⟨_, by rw [hb]; rfl⟩
    · exact .inr ⟨by rw [hb], hempty hnone⟩
  | none =>
    by_cases htype : r.type = .bit
    · simp only [if_pos htype, bind, Except.bind]
      obtain ⟨b, hb⟩ | ⟨hb, hnone⟩ := firstByte_eq_ok_or (data.slice 0 r.size)
      · exact .inl ⟨_, by rw [hb]; rfl⟩
      · exact .inr ⟨by rw [hb], hempty hnone⟩
    · simp only [if_neg htype]
      by_cases hreal : r.type.isReal = true
      · simp only [if_pos hreal]
        by_cases hnarrow : r.size = 4
        · exact .inl ⟨_, if_pos hnarrow⟩
        · have hwide : r.size = 8 := (h.width hbit hreal).resolve_left hnarrow
          exact .inl ⟨_, (if_neg hnarrow).trans (if_pos hwide)⟩
      · exact .inl ⟨_, if_neg hreal⟩

/-- A bit index or a width that is not legal is refused, whatever the bytes are, and that is
reported if it can be written out. -/
theorem decode_of_not_legal (h : ¬ Legal r) :
    ∃ fault, decode r data = .error fault ∧ fault.isAccess ∧ (r.Brief → fault.Reported) := by
  rw [decode]
  split
  · exact ⟨_, rfl, rfl, fun hbrief => Fault.reported_tooFewBytes_iff.2 hbrief.size⟩
  · cases hbit : r.bit with
    | some bit =>
      have hnot : ¬ (0 ≤ bit ∧ bit ≤ 7) := by
        simpa [legal_iff, hbit] using h
      simp only [checkBit_of_not_legal hnot, bind, Except.bind]
      exact ⟨_, rfl, rfl, fun hbrief =>
        Fault.reported_bitOutOfRange_iff.2 (hbrief.bit bit hbit)⟩
    | none =>
      obtain ⟨hreal, hnarrow, hwide⟩ : r.type.isReal = true ∧ r.size ≠ 4 ∧ r.size ≠ 8 := by
        simpa [legal_iff, hbit] using h
      have htype : r.type ≠ .bit := by
        intro htype
        rw [htype] at hreal
        cases hreal
      simp only [if_neg htype, if_pos hreal, if_neg hnarrow, if_neg hwide]
      exact ⟨_, rfl, rfl, fun hbrief => Fault.reported_floatWidth_iff.2 hbrief.size⟩

/-- A value of some bytes can be decoded from as many, or is refused. -/
theorem decode_of_size (hsize : 0 < r.size) (hdata : r.size ≤ data.size) :
    (∃ value, decode r data = .ok value) ∨
      ∃ fault, decode r data = .error fault ∧ fault.isAccess ∧ (r.Brief → fault.Reported) := by
  by_cases hlegal : Legal r
  · exact .inl ((decode_of_legal hlegal hdata).resolve_right fun hnone => by omega)
  · exact .inr (decode_of_not_legal hlegal)

/-- A value inside an image is read from the bytes that it takes. -/
theorem read_eq_decode (hstart : 0 ≤ r.address) (hstop : r.address + r.size ≤ memory.size) :
    read memory r = decode r (memory.slice r.address (r.address + r.size)) := by
  rw [read, Bytes.window_of_inside hstart hstop]
  rfl

/-- A value of some bytes inside an image can be read, or is refused. -/
theorem read_of_inside (hsize : 0 < r.size) (hstart : 0 ≤ r.address)
    (hstop : r.address + r.size ≤ memory.size) :
    (∃ value, read memory r = .ok value) ∨
      ∃ fault, read memory r = .error fault ∧ fault.isAccess ∧ (r.Brief → fault.Reported) := by
  rw [read_eq_decode hstart hstop]
  exact decode_of_size hsize (Bytes.le_size_slice hstart hstop)

/-- A legible value can be read, unless it needs a byte and has none. -/
theorem readTruth_of_legible (h : Legible memory r) :
    (∃ level, readTruth memory r = .ok level) ∨
      readTruth memory r = .error .noBytes ∧ r.size ≤ 0 := by
  rw [readTruth, read_eq_decode h.start h.stop]
  have hwindow := Bytes.le_size_slice h.start h.stop
  obtain ⟨value, hvalue⟩ | ⟨hnone, hempty⟩ := decode_of_legal h.legal hwindow
  · exact .inl ⟨value.truth, by rw [hvalue]; rfl⟩
  · exact .inr ⟨by rw [hnone]; rfl, hempty⟩

/-- A value that is not legible is refused, and that is reported if it can be written out. -/
theorem readTruth_of_not_legible (h : ¬ Legible memory r) :
    ∃ fault, readTruth memory r = .error fault ∧ fault.isAccess ∧
      (r.Brief → ¬ IsLong r.address → fault.Reported) := by
  by_cases hinside : 0 ≤ r.address ∧ r.address + r.size ≤ memory.size
  · have hnot : ¬ Legal r := fun hlegal => h ⟨hinside.1, hinside.2, hlegal⟩
    obtain ⟨fault, hfault, haccess, hreported⟩ : ∃ fault,
        decode r (memory.slice r.address (r.address + r.size)) = .error fault ∧
          fault.isAccess ∧ (r.Brief → fault.Reported) := decode_of_not_legal hnot
    refine ⟨fault, ?_, haccess, fun hbrief _ => hreported hbrief⟩
    rw [readTruth, read_eq_decode hinside.1 hinside.2, hfault]
    rfl
  · refine ⟨.outsideMemory r.size r.address memory.size, ?_, rfl, fun hbrief hshort => ?_⟩
    · rw [readTruth, read, Bytes.window_of_outside hinside]
      rfl
    · rw [Fault.reported_outsideMemory_iff, not_or]
      exact ⟨hbrief.size, hshort⟩

/-- A value is refused for a reason that the monitor has an error for, which is reported if it can be
written out, or because it has no byte. -/
theorem readTruth_fault {fault : Fault} (hfails : readTruth memory r = .error fault) :
    fault.isAccess ∧ (r.Brief → ¬ IsLong r.address → fault.Reported) ∨
      fault = .noBytes ∧ r.size ≤ 0 := by
  by_cases hlegible : Legible memory r
  · obtain ⟨level, hlevel⟩ | ⟨hnone, hsize⟩ := readTruth_of_legible hlegible
    · rw [hlevel] at hfails
      cases hfails
    · exact .inr ⟨Except.error.inj (hfails.symm.trans hnone), hsize⟩
  · obtain ⟨other, hother, hrefused⟩ := readTruth_of_not_legible hlegible
    obtain rfl := Except.error.inj (hfails.symm.trans hother)
    exact .inl hrefused

end Codec

end LadderMonitor
