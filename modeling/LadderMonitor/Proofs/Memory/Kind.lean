import LadderMonitor.Proofs.Memory.IntegerCodec
import LadderMonitor.Proofs.Outcome

namespace LadderMonitor

/-- The values of a type in so many bytes: a truth value for a bit, a floating-point number for a
real type, and otherwise an integer in the range of the bytes. -/
inductive ValueType.Holds (type : ValueType) (size : Nat) : Scalar → Prop where
  | truth {value : Bool} (htype : type = .bit) : Holds type size (.bool value)
  | real {x : Double} (hreal : type.isReal) : Holds type size (.real x)
  | integer {n : Int} (htype : type ≠ .bit) (hreal : type.isReal = false)
      (hrange : LittleEndian.InRange type.isSigned size n) : Holds type size (.int n)

/-- A real type takes as many bytes as floating-point numbers have. -/
theorem ValueType.width_of_isReal {type : ValueType} (hreal : type.isReal) :
    type.width = 4 ∨ type.width = 8 := by
  cases type <;> simp_all [isReal, width]

namespace Codec

variable {memory data : Bytes} {r : ResolvedAddress} {value : Scalar}

/-- Whatever is decoded is a value of the type, if nothing but bits has a bit index. -/
theorem holds_of_decode (hbit : ∀ bit, r.bit = some bit → r.type = .bit) (hsize : 1 ≤ r.size)
    (hdecode : decode r data = .ok value) : r.type.Holds r.size.toNat value := by
  rw [decode] at hdecode
  split at hdecode
  · cases hdecode
  · rename_i henough
    cases hindex : r.bit with
    | some bit =>
      simp only [hindex] at hdecode
      obtain ⟨_, -, hfirst⟩ := bind_eq_ok_iff.1 hdecode
      obtain ⟨_, -, hvalue⟩ := bind_eq_ok_iff.1 hfirst
      obtain rfl := Except.ok.inj hvalue
      exact .truth (hbit bit hindex)
    | none =>
      simp only [hindex] at hdecode
      split_ifs at hdecode with htype hreal hnarrow hwide
      · obtain ⟨_, -, hvalue⟩ := bind_eq_ok_iff.1 hdecode
        obtain rfl := Except.ok.inj hvalue
        exact .truth htype
      · obtain rfl := Except.ok.inj hdecode
        exact .real hreal
      · obtain rfl := Except.ok.inj hdecode
        exact .real hreal
      · obtain rfl := Except.ok.inj hdecode
        have hlength : (data.slice 0 r.size).toList.length = r.size.toNat := by
          rw [Bytes.toList_slice_zero (by omega) (by omega), List.length_take, Array.length_toList]
          omega
        refine .integer htype (by simpa using hreal) ?_
        rw [← hlength]
        exact LittleEndian.inRange_integer (by omega)

/-- A value inside an image is read, and is a value of its type. -/
theorem read_holds (hlegible : Legible memory r) (hbit : ∀ bit, r.bit = some bit → r.type = .bit)
    (hsize : 1 ≤ r.size) :
    ∃ value, read memory r = .ok value ∧ r.type.Holds r.size.toNat value := by
  rw [read_eq_decode hlegible.start hlegible.stop]
  have hwindow := Bytes.le_size_slice hlegible.start hlegible.stop
  obtain ⟨value, hvalue⟩ :=
    (decode_of_legal hlegible.legal hwindow).resolve_right fun hnone => by omega
  exact ⟨value, hvalue, holds_of_decode hbit hsize hvalue⟩

/-- A bit that no byte has cannot be read from any image. -/
theorem read_of_bit_outside {bit : Int} (hstart : 0 ≤ r.address)
    (hstop : r.address + r.size ≤ memory.size) (hindex : r.bit = some bit) (hbit : 7 < bit) :
    read memory r = .error (.bitOutOfRange bit) := by
  have hwindow := Bytes.le_size_slice hstart hstop
  rw [read_eq_decode hstart hstop, decode, if_neg (by omega), hindex]
  simp only [checkBit_of_not_legal (show ¬ (0 ≤ bit ∧ bit ≤ 7) by omega)]
  rfl

end Codec

end LadderMonitor
