import LadderMonitor.Proofs.Memory.Bit
import LadderMonitor.Proofs.Memory.IntegerCodec
import LadderMonitor.Proofs.Outcome

namespace LadderMonitor

namespace Change

variable {α β : Type} {result : Except Fault α} {next : α → Change β} {memory after : Bytes} {b : β}

theorem require_bind_eq_ok_iff : (require result >>= next).run memory = .ok b after ↔
    ∃ a, result = .ok a ∧ (next a).run memory = .ok b after := by
  cases result with
  | ok a =>
    change (next a).run memory = .ok b after ↔ _
    simp
  | error fault => exact ⟨nofun, nofun⟩

theorem modify_eq_ok_iff {f : Bytes → Bytes} {u : Unit} :
    (modify f : Change Unit).run memory = .ok u after ↔ after = f memory := by
  change EStateM.Result.ok () (f memory) = .ok () after ↔ _
  rw [EStateM.Result.ok.injEq, eq_comm (a := f memory)]
  simp

theorem run_get_bind {next : Bytes → Change β} :
    (get >>= next).run memory = (next memory).run memory :=
  rfl

/-- Whether a change that fails leaves the image as it was. -/
def Atomic (change : Change α) : Prop :=
  ∀ memory fault after, change.run memory = .error fault after → after = memory

theorem Atomic.modify (f : Bytes → Bytes) : Atomic (modify f) := nofun

theorem Atomic.require_bind (h : ∀ a, Atomic (next a)) : Atomic (require result >>= next) := by
  intro memory fault after hrun
  cases result with
  | ok a => exact h a memory fault after hrun
  | error other =>
    obtain ⟨-, rfl⟩ := EStateM.Result.error.inj hrun
    rfl

theorem Atomic.get_bind {next : Bytes → Change β} (h : ∀ memory, Atomic (next memory)) :
    Atomic (get >>= next) :=
  fun memory => h memory memory

end Change

/-- A bit of a byte of an image, if there is such a byte. -/
def Bytes.bit? (bytes : Bytes) (i k : Nat) : Option Bool := bytes[i]?.map (Codec.testBit · k)

namespace Codec

open Change

variable {memory after : Bytes} {r : ResolvedAddress} {value : Scalar} {fault : Fault}

theorem atomic_putBitAt (r : ResolvedAddress) (value : Bool) : Atomic (putBitAt r value) :=
  .require_bind fun _ => .get_bind fun _ => .require_bind fun _ => .require_bind fun _ => .modify _

/-- Everything that can fail comes before the image is changed. -/
theorem atomic_put (r : ResolvedAddress) (value : Scalar) : Atomic (put r value) := by
  unfold put
  split
  · exact atomic_putBitAt r value.truth
  · exact .get_bind fun _ => .require_bind fun _ => .require_bind fun _ => .modify _

theorem firstByte_eq_ok_iff {bytes : Bytes} {b : UInt8} :
    firstByte bytes = .ok b ↔ bytes[0]? = some b := by
  rw [firstByte]
  cases bytes[0]? with
  | some b' => simp
  | none => simp

theorem checkBit_eq_ok_iff {bit : Int} {k : Nat} :
    checkBit bit = .ok k ↔ (0 ≤ bit ∧ bit ≤ 7) ∧ k = bit.toNat := by
  by_cases hbit : 0 ≤ bit ∧ bit ≤ 7
  · rw [checkBit_of_legal hbit, Except.ok.injEq, eq_comm]
    simp [hbit]
  · rw [checkBit_of_not_legal hbit]
    simp [hbit]

theorem window_eq_ok_iff {address size : Int} {window : Bytes} :
    memory.window address size = .ok window ↔
      (0 ≤ address ∧ address + size ≤ memory.size) ∧
        window = memory.slice address (address + size) := by
  by_cases hinside : 0 ≤ address ∧ address + size ≤ memory.size
  · rw [Bytes.window_of_inside hinside.1 hinside.2, Except.ok.injEq, eq_comm]
    simp [hinside]
  · rw [Bytes.window_of_outside hinside]
    simp [hinside]

theorem getElem?_window {address : Int} (hstart : 0 ≤ address) (hstop : address + 1 ≤ memory.size) :
    (memory.slice address (address + 1))[0]? = memory[address.toNat]? := by
  rw [Bytes.getElem?_slice memory hstart zero_le_one hstop]
  rfl

/-- A bit is written exactly if it is one of a byte of the image. -/
theorem putBitAt_eq_ok_iff {value : Bool} {bit : Int} (hindex : r.bit = some bit) :
    (putBitAt r value).run memory = .ok () after ↔
      (0 ≤ bit ∧ bit ≤ 7) ∧ 0 ≤ r.address ∧ ∃ b, memory[r.address.toNat]? = some b ∧
        after = memory.overwrite r.address [putBit b bit.toNat value] := by
  simp only [putBitAt, hindex, Option.getD_some, require_bind_eq_ok_iff, run_get_bind,
    modify_eq_ok_iff, checkBit_eq_ok_iff, window_eq_ok_iff, firstByte_eq_ok_iff]
  constructor
  · rintro ⟨_, ⟨hbit, rfl⟩, _, ⟨⟨hstart, hstop⟩, rfl⟩, b, hb, rfl⟩
    rw [getElem?_window hstart hstop] at hb
    exact ⟨hbit, hstart, b, hb, rfl⟩
  · rintro ⟨hbit, hstart, b, hb, rfl⟩
    have hstop : r.address + 1 ≤ memory.size := by
      have hless := (Array.getElem?_eq_some_iff.1 hb).1
      omega
    refine ⟨_, ⟨hbit, rfl⟩, _, ⟨⟨hstart, hstop⟩, rfl⟩, b, ?_, rfl⟩
    rwa [getElem?_window hstart hstop]

theorem put_bit_eq_ok_iff {bit : Int} (hindex : r.bit = some bit) :
    (put r value).run memory = .ok () after ↔
      (0 ≤ bit ∧ bit ≤ 7) ∧ 0 ≤ r.address ∧ ∃ b, memory[r.address.toNat]? = some b ∧
        after = memory.overwrite r.address [putBit b bit.toNat value.truth] := by
  simp only [put, hindex, putBitAt_eq_ok_iff hindex]

/-- A whole value is written exactly if it lies in the image and can be encoded. -/
theorem put_whole_eq_ok_iff (hindex : r.bit = none) :
    (put r value).run memory = .ok () after ↔
      (0 ≤ r.address ∧ r.address + r.size ≤ memory.size) ∧
        ∃ data, encode r value = .ok data ∧ after = memory.splice r.address r.stop data := by
  simp only [put, hindex, require_bind_eq_ok_iff, run_get_bind, modify_eq_ok_iff, window_eq_ok_iff]
  constructor
  · rintro ⟨_, ⟨hinside, -⟩, hdata⟩
    exact ⟨hinside, hdata⟩
  · rintro ⟨hinside, hdata⟩
    exact ⟨_, ⟨hinside, rfl⟩, hdata⟩

/-- A bit is read from the byte at its address. -/
theorem read_bit {bit : Int} {b : UInt8} (hindex : r.bit = some bit) (hbit : 0 ≤ bit ∧ bit ≤ 7)
    (hsize : r.size = 1) (hstart : 0 ≤ r.address) (hb : memory[r.address.toNat]? = some b) :
    read memory r = .ok (.bool (testBit b bit.toNat)) := by
  have hless := (Array.getElem?_eq_some_iff.1 hb).1
  have hstop : r.address + 1 ≤ memory.size := by omega
  have hwindow : (memory.slice r.address (r.address + 1)).size = 1 :=
    Bytes.size_slice memory hstart zero_le_one hstop
  have hfirst : firstByte ((memory.slice r.address (r.address + 1)).slice 0 1) = .ok b := by
    rw [firstByte_eq_ok_iff]
    exact (getElem?_window le_rfl (by omega)).trans ((getElem?_window hstart hstop).trans hb)
  rw [read_eq_decode hstart (by omega), hsize, decode, if_neg (by omega), hindex, hsize]
  simp only [checkBit_of_legal hbit, hfirst]
  rfl

/-- A value is encoded like the integer that is written for it. -/
theorem encodeInteger_eq_ok_iff {data : List UInt8} :
    encodeInteger r value = .ok data ↔
      ∃ n, value.toInt = .ok n ∧ encodeInteger r (.int n) = .ok data := by
  cases hvalue : value.toInt with
  | error fault =>
    rw [encodeInteger, hvalue]
    cases fault <;> simp
  | ok n =>
    have hn : (Scalar.int n).toInt = .ok n := rfl
    simp only [Except.ok.injEq, exists_eq_left', encodeInteger, hvalue, hn]
    split_ifs <;> simp

theorem length_of_encodeReal {size : Int} {data : List UInt8}
    (h : encodeReal size value = .ok data) : (data.length : Int) = size := by
  rw [encodeReal] at h
  split at h
  · obtain ⟨x, -, hx⟩ := bind_eq_ok_iff.1 h
    split at hx
    · obtain rfl := Except.ok.inj hx
      rw [LittleEndian.length_bytes]
      omega
    · cases hx
  · split at h
    · obtain ⟨x, -, hx⟩ := bind_eq_ok_iff.1 h
      obtain rfl := Except.ok.inj hx
      rw [LittleEndian.length_bytes]
      omega
    · cases h

theorem length_of_encodeInteger {data : List UInt8} (h : encodeInteger r value = .ok data) :
    (data.length : Int) = r.size := by
  obtain ⟨n, -, hn⟩ := encodeInteger_eq_ok_iff.1 h
  simp only [encodeInteger, Scalar.toInt] at hn
  split at hn
  · cases hn
  · split at hn
    · cases hn
    · split at hn
      · obtain rfl := Except.ok.inj hn
        rw [LittleEndian.length_ofInteger]
        omega
      · cases hn

/-- A value is encoded in as many bytes as its address takes, whatever its type. -/
theorem length_of_encode {data : List UInt8} (h : encode r value = .ok data) :
    (data.length : Int) = r.size := by
  rw [encode] at h
  split at h
  · exact length_of_encodeReal h
  · exact length_of_encodeInteger h

/-- The integer that is written for a value is read. -/
theorem Integral.read_splice {n : Int} {data : List UInt8} (h : Integral r) (hstart : 0 ≤ r.address)
    (hstop : r.address + r.size ≤ memory.size) (hn : value.toInt = .ok n)
    (hdata : encode r value = .ok data) :
    read (memory.splice r.address r.stop data) r = .ok (.int n) := by
  have hlength := length_of_encode hdata
  have hinside : r.address + data.length ≤ memory.size := by omega
  rw [h.encode_eq_encodeInteger, encodeInteger_eq_ok_iff] at hdata
  obtain ⟨m, hm, hdata⟩ := hdata
  obtain rfl : m = n := Except.ok.inj (hm.symm.trans hn)
  rw [← h.encode_eq_encodeInteger, h.encode_eq_ok_iff] at hdata
  obtain ⟨⟨-, hrange⟩, hform⟩ := hdata
  have hpos := h.size
  have hwindow := Bytes.toList_slice_splice hstart hinside
  have hsize : (memory.splice r.address r.stop data).size = memory.size := by
    rw [ResolvedAddress.stop, ← hlength, Bytes.size_splice hstart hinside]
  rw [hlength, ← ResolvedAddress.stop] at hwindow
  rw [read_eq_decode hstart (by omega), ← ResolvedAddress.stop, h.decode_eq, hwindow,
    List.take_of_length_le (by omega), hform, LittleEndian.integer_ofInteger (by omega) hrange]
  rw [← Array.length_toList, hwindow, hlength]

/-- Whether a value can be written: its bit is one of a byte of the image, or its bytes lie in the
image and it can be encoded in them. -/
inductive Writable (memory : Bytes) (r : ResolvedAddress) (value : Scalar) : Prop where
  | bit {bit : Int} (hindex : r.bit = some bit) (hbit : 0 ≤ bit ∧ bit ≤ 7) (hstart : 0 ≤ r.address)
      (hstop : r.address < memory.size)
  | whole {data : List UInt8} (hindex : r.bit = none) (hstart : 0 ≤ r.address)
      (hstop : r.stop ≤ memory.size) (hdata : encode r value = .ok data)

/-- What a write leaves that has succeeded. -/
structure Written (memory : Bytes) (r : ResolvedAddress) (value : Scalar) (after : Bytes) :
    Prop where
  size : after.size = memory.size
  /-- A whole value changes nothing but the bytes that it takes. -/
  bytes : r.bit = none → ∀ i : Nat, ¬ (r.address ≤ i ∧ i < r.stop) → after[i]? = memory[i]?
  /-- A bit changes nothing but itself. -/
  bits : ∀ bit, r.bit = some bit → ∀ i k : Nat, ¬ ((i : Int) = r.address ∧ (k : Int) = bit) →
    after.bit? i k = memory.bit? i k
  readBit : ∀ bit, r.bit = some bit → r.size = 1 → read after r = .ok (.bool value.truth)
  readInteger : Integral r → ∀ n, value.toInt = .ok n → read after r = .ok (.int n)

theorem written_of_bit {bit : Int} {b : UInt8} (hindex : r.bit = some bit)
    (hbit : 0 ≤ bit ∧ bit ≤ 7) (hstart : 0 ≤ r.address) (hb : memory[r.address.toNat]? = some b) :
    Written memory r value
      (memory.overwrite r.address [putBit b bit.toNat value.truth]) := by
  have hless := (Array.getElem?_eq_some_iff.1 hb).1
  have hput : (memory.overwrite r.address [putBit b bit.toNat value.truth])[r.address.toNat]? =
      some (putBit b bit.toNat value.truth) := by
    rw [Bytes.getElem?_overwrite _ _ _ hless, if_pos (by simp; omega)]
    simp [Int.toNat_of_nonneg hstart]
  constructor
  case size => exact Bytes.size_overwrite _ _ _
  case bytes =>
    intro hwhole
    rw [hindex] at hwhole
    cases hwhole
  case bits =>
    intro bit' hbit' i k hother
    obtain rfl : bit = bit' := Option.some.inj (hindex.symm.trans hbit')
    by_cases hi : i = r.address.toNat
    · have hk : k ≠ bit.toNat := by omega
      rw [Bytes.bit?, Bytes.bit?, hi, hput, hb, Option.map_some, Option.map_some,
        testBit_putBit (by omega), if_neg hk]
    · rw [Bytes.bit?, Bytes.bit?, Bytes.getElem?_overwrite_of_outside (by simp; omega)]
  case readBit =>
    intro bit' hbit' hsize
    obtain rfl : bit = bit' := Option.some.inj (hindex.symm.trans hbit')
    rw [read_bit hindex hbit hsize hstart hput, testBit_putBit (by omega), if_pos rfl]
  case readInteger =>
    intro h
    rw [h.noBit] at hindex
    cases hindex

theorem written_of_whole {data : List UInt8} (hindex : r.bit = none) (hstart : 0 ≤ r.address)
    (hstop : r.stop ≤ memory.size) (hdata : encode r value = .ok data) :
    Written memory r value (memory.splice r.address r.stop data) := by
  have hlength := length_of_encode hdata
  have hplace : r.stop = r.address + data.length := by rw [ResolvedAddress.stop, hlength]
  have hinside : r.address + data.length ≤ memory.size := by omega
  constructor
  case size => rw [hplace, Bytes.size_splice hstart hinside]
  case bytes =>
    intro _ i houtside
    rw [hplace] at houtside
    rw [hplace, Bytes.splice_eq_overwrite hstart hinside]
    exact Bytes.getElem?_overwrite_of_outside houtside
  case bits =>
    intro bit hbit
    rw [hindex] at hbit
    cases hbit
  case readBit =>
    intro bit hbit
    rw [hindex] at hbit
    cases hbit
  case readInteger =>
    intro h n hn
    exact h.read_splice hstart hstop hn hdata

theorem written_of_put (hput : (put r value).run memory = .ok () after) :
    Written memory r value after := by
  cases hindex : r.bit with
  | some bit =>
    obtain ⟨hbit, hstart, b, hb, rfl⟩ := (put_bit_eq_ok_iff hindex).1 hput
    exact written_of_bit hindex hbit hstart hb
  | none =>
    obtain ⟨⟨hstart, hstop⟩, data, hdata, rfl⟩ := (put_whole_eq_ok_iff hindex).1 hput
    exact written_of_whole hindex hstart hstop hdata

theorem exists_put_iff :
    (∃ after, (put r value).run memory = .ok () after) ↔ Writable memory r value := by
  constructor
  · rintro ⟨after, hput⟩
    cases hindex : r.bit with
    | some bit =>
      obtain ⟨hbit, hstart, b, hb, -⟩ := (put_bit_eq_ok_iff hindex).1 hput
      have hless := (Array.getElem?_eq_some_iff.1 hb).1
      exact .bit hindex hbit hstart (by omega)
    | none =>
      obtain ⟨⟨hstart, hstop⟩, data, hdata, -⟩ := (put_whole_eq_ok_iff hindex).1 hput
      exact .whole hindex hstart hstop hdata
  · intro hwritable
    cases hwritable with
    | bit hindex hbit hstart hstop =>
      have hb := Array.getElem?_eq_getElem (show r.address.toNat < memory.size by omega)
      exact ⟨_, (put_bit_eq_ok_iff hindex).2 ⟨hbit, hstart, _, hb, rfl⟩⟩
    | whole hindex hstart hstop hdata =>
      exact ⟨_, (put_whole_eq_ok_iff hindex).2 ⟨⟨hstart, hstop⟩, _, hdata, rfl⟩⟩

/-- A write is done as a whole or not at all.

If it fails, the image is as it was. It succeeds exactly if the value is writable. Then the image
has its length, nothing but the bytes or the bit of the value can differ, and the value is read: the
truth value of a bit, and the integer that is written for a value of an integer type. -/
theorem put_all_or_nothing (memory : Bytes) (r : ResolvedAddress) (value : Scalar) :
    (∀ fault after, (put r value).run memory = .error fault after → after = memory) ∧
    (∀ after, (put r value).run memory = .ok () after → Written memory r value after) ∧
    ((∃ after, (put r value).run memory = .ok () after) ↔ Writable memory r value) :=
  ⟨atomic_put r value memory, fun _ => written_of_put, exists_put_iff⟩

/-- A speed, of two bytes. -/
def speed : ResolvedAddress := ⟨1, 2, none, .int⟩

/-- A negative speed is written between the bytes around it and read; one that is too large is not
written at all. -/
theorem speed_all_or_nothing :
    read #[7, 0xFE, 0xFF, 7] speed = .ok (.int (-2)) ∧
      (put speed (.int 32768)).run #[7, 0, 0, 7] =
        .error (.doesNotFit (.int 32768) .int) #[7, 0, 0, 7] := by
  obtain ⟨-, hwritten, -⟩ := put_all_or_nothing #[7, 0, 0, 7] speed (.int (-2))
  have hintegral : Integral speed := ⟨rfl, by decide, rfl, by decide⟩
  have hput : (put speed (.int (-2))).run #[7, 0, 0, 7] = .ok () #[7, 0xFE, 0xFF, 7] := rfl
  exact ⟨(hwritten _ hput).readInteger hintegral (-2) rfl, rfl⟩

end Codec

end LadderMonitor
