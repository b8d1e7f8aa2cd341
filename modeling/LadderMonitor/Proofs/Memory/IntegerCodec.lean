import LadderMonitor.Proofs.Memory.LittleEndian
import LadderMonitor.Proofs.Memory.Reading

namespace LadderMonitor

theorem Bytes.toList_slice_zero {data : Bytes} {size : Int} (hsize : 0 ≤ size)
    (hdata : size ≤ data.size) : (data.slice 0 size).toList = data.toList.take size.toNat := by
  rw [slice, position_of_inside data (Int.le_refl 0) (by omega),
    position_of_inside data hsize hdata, Array.toList_extract]
  rfl

namespace Codec

open LittleEndian

/-- An address of a whole integer: no bit, no truth value and no floating-point number. -/
structure Integral (r : ResolvedAddress) : Prop where
  noBit : r.bit = none
  noTruth : r.type ≠ .bit
  noReal : r.type.isReal = false
  size : 1 ≤ r.size

/-- Whether an integer has a form in the bytes of an address: there are byte strings of this length,
and the integer is in their range, with the signedness of the type. -/
structure FitsIn (r : ResolvedAddress) (n : Int) : Prop where
  length : r.size < lengthLimit
  range : InRange r.type.isSigned r.size.toNat n

variable {r : ResolvedAddress} {value : Scalar} {n : Int} {data : List UInt8}

theorem Integral.encode_eq_encodeInteger (h : Integral r) (value : Scalar) :
    encode r value = encodeInteger r value := by
  rw [encode, if_neg (by simp [h.noReal])]

theorem encodeInteger_of_fitsIn (hsize : 1 ≤ r.size) (hvalue : value.toInt = .ok n)
    (hn : FitsIn r n) : encodeInteger r value = .ok (ofInteger r.size.toNat n) := by
  have hinside : ¬ (r.size < -indexLimit || lengthLimit ≤ r.size) = true := by
    have hlimit := hn.length
    have hindex : indexLimit = 2 ^ 63 := rfl
    simp only [hindex, Bool.or_eq_true, decide_eq_true_iff]
    omega
  have hfits := (fits_iff_inRange (show 0 < r.size.toNat by omega)).2 hn.range
  rw [encodeInteger, hvalue]
  simp only [if_neg hinside, if_neg (show ¬ r.size < 0 by omega), if_pos hfits]

theorem encodeInteger_of_not_fitsIn (hsize : 1 ≤ r.size) (hvalue : value.toInt = .ok n)
    (hn : ¬ FitsIn r n) : encodeInteger r value = .error (.doesNotFit value r.type) := by
  rw [encodeInteger, hvalue]
  by_cases hbeyond : (r.size < -indexLimit || lengthLimit ≤ r.size) = true
  · simp only [if_pos hbeyond]
  · have hlimit : r.size < lengthLimit := by
      simp only [Bool.or_eq_true, decide_eq_true_iff] at hbeyond
      omega
    have hfits : ¬ fits r.type.isSigned r.size.toNat n = true := by
      rw [fits_iff_inRange (show 0 < r.size.toNat by omega)]
      exact fun hrange => hn ⟨hlimit, hrange⟩
    simp only [if_neg hbeyond, if_neg (show ¬ r.size < 0 by omega), if_neg hfits]

theorem Integral.encode_of_fitsIn (h : Integral r) (hn : FitsIn r n) :
    encode r (.int n) = .ok (ofInteger r.size.toNat n) := by
  rw [h.encode_eq_encodeInteger]
  exact encodeInteger_of_fitsIn h.size rfl hn

theorem Integral.encode_of_not_fitsIn (h : Integral r) (hn : ¬ FitsIn r n) :
    encode r (.int n) = .error (.doesNotFit (.int n) r.type) := by
  rw [h.encode_eq_encodeInteger]
  exact encodeInteger_of_not_fitsIn h.size rfl hn

theorem Integral.decode_eq (h : Integral r) {bytes : Bytes} (hdata : r.size ≤ bytes.size) :
    decode r bytes = .ok (.int (integer r.type.isSigned (bytes.toList.take r.size.toNat))) := by
  have hsize := h.size
  rw [decode, if_neg (by omega), h.noBit]
  simp only [if_neg h.noTruth, h.noReal, Bool.false_eq_true, if_false]
  rw [Bytes.toList_slice_zero (by omega) hdata]

/-- An integer is encoded exactly if it fits, and what is encoded is the integer. -/
theorem Integral.encode_eq_ok_iff (h : Integral r) :
    encode r (.int n) = .ok data ↔ FitsIn r n ∧ data = ofInteger r.size.toNat n := by
  by_cases hn : FitsIn r n
  · rw [h.encode_of_fitsIn hn, Except.ok.injEq]
    exact ⟨fun heq => ⟨hn, heq.symm⟩, fun heq => heq.2.symm⟩
  · rw [h.encode_of_not_fitsIn hn]
    exact ⟨nofun, fun heq => absurd heq.1 hn⟩

/-- The codec of integers is a bijection between the integers in range and the byte strings of a
size, for every size that a byte string can have.

An integer of any magnitude is encoded if it is in the range of the size, with the signedness of the
type, and otherwise refused; the refusal is reported unless the integer is too long to be written
out. Its bytes are as many as the size says, little-endian, and decode to the integer whatever
follows them. Every byte string of the size is the encoding of the integer that it decodes to. Of a
size that no byte string has, every integer is refused. -/
theorem integer_codec (h : Integral r) :
    (∀ n : Int, ((∃ data, encode r (.int n) = .ok data) ↔ FitsIn r n) ∧
      (¬ FitsIn r n → encode r (.int n) = .error (.doesNotFit (.int n) r.type) ∧
        ((Fault.doesNotFit (.int n) r.type).Reported ↔ ¬ IsLong n))) ∧
    (∀ (n : Int) (data : List UInt8), encode r (.int n) = .ok data →
      data.length = r.size ∧
      ((Nat.ofDigits 256 (data.map UInt8.toNat) : Nat) : Int) = n % 256 ^ r.size.toNat ∧
      ∀ rest, decode r (data ++ rest).toArray = .ok (.int n)) ∧
    ∀ bytes : Bytes, bytes.size = r.size → r.size < lengthLimit →
      ∃ n, decode r bytes = .ok (.int n) ∧ encode r (.int n) = .ok bytes.toList := by
  have hsize := h.size
  have hpos : 0 < r.size.toNat := by omega
  refine ⟨fun n => ⟨?_, fun hn => ⟨h.encode_of_not_fitsIn hn, ?_⟩⟩, fun n data hdata => ?_,
    fun bytes hbytes hlimit => ?_⟩
  · simp only [h.encode_eq_ok_iff, exists_and_left, exists_eq, and_true]
  · simp only [Fault.reported_doesNotFit_iff, Scalar.int.injEq, forall_eq']
  · obtain ⟨hn, rfl⟩ := h.encode_eq_ok_iff.1 hdata
    refine ⟨by rw [length_ofInteger]; omega, ?_, fun rest => ?_⟩
    · rw [← value_eq_ofDigits, value_ofInteger, capacity, Nat.pow_eq]
      push_cast
      rfl
    · have henough : r.size ≤ ((ofInteger r.size.toNat n ++ rest).toArray : Bytes).size := by
        rw [List.size_toArray, List.length_append, length_ofInteger]
        omega
      rw [h.decode_eq henough, List.toList_toArray, List.take_left' (length_ofInteger _ _),
        integer_ofInteger hpos hn.range]
  · have hlength : bytes.toList.length = r.size.toNat := by
      rw [Array.length_toList]
      omega
    refine ⟨integer r.type.isSigned bytes.toList, ?_, ?_⟩
    · rw [h.decode_eq hbytes.ge, List.take_of_length_le hlength.le]
    · refine h.encode_eq_ok_iff.2 ⟨⟨hlimit, ?_⟩, ?_⟩
      · rw [← hlength]
        exact inRange_integer (hlength ▸ hpos)
      · rw [← hlength, ofInteger_integer]

/-- A timer, of nine bytes. -/
def firstTimer : ResolvedAddress := ⟨448, 9, none, .byte⟩

theorem integral_firstTimer : Integral firstTimer := ⟨rfl, by decide, rfl, by decide⟩

/-- The largest timer value is written, whatever follows it, and the next one is not. -/
theorem firstTimer_codec :
    Integral firstTimer ∧
      decode firstTimer (List.replicate 9 (255 : UInt8) ++ [7]).toArray = .ok (.int (2 ^ 72 - 1)) ∧
      encode firstTimer (.int (2 ^ 72)) = .error (.doesNotFit (.int (2 ^ 72)) .byte) := by
  obtain ⟨hfits, hread, -⟩ := integer_codec integral_firstTimer
  have hwritten : encode firstTimer (.int (2 ^ 72 - 1)) = .ok (List.replicate 9 255) := rfl
  obtain ⟨-, -, hdecode⟩ := hread _ _ hwritten
  refine ⟨integral_firstTimer, hdecode [7], ((hfits (2 ^ 72)).2 ?_).1⟩
  rintro ⟨-, -, hhigh⟩
  exact absurd hhigh (by decide)

/-- No value at all is written in as many bytes as no byte string has, not even a zero. -/
theorem zero_refused_in_too_many_bytes :
    Integral ⟨0, 2 ^ 63, none, .byte⟩ ∧ InRange ValueType.byte.isSigned (2 ^ 63) 0 ∧
      encode ⟨0, 2 ^ 63, none, .byte⟩ (.int 0) = .error (.doesNotFit (.int 0) .byte) := by
  have hintegral : Integral ⟨0, 2 ^ 63, none, .byte⟩ := ⟨rfl, by decide, rfl, by decide⟩
  refine ⟨hintegral, ⟨le_rfl, ?_⟩, ?_⟩
  · exact Int.pow_pos (by decide)
  · exact hintegral.encode_of_not_fitsIn fun hn => absurd hn.length (by decide)

end Codec

end LadderMonitor
