import LadderMonitor.Proofs.Memory.Writing
import LadderMonitor.Proofs.Numeric.Nearest

namespace LadderMonitor

namespace Change

variable {α β : Type} {result : Except Fault α} {next : α → Change β} {memory after : Bytes}
  {fault : Fault}

theorem require_bind_eq_error_iff :
    (require result >>= next).run memory = .error fault after ↔
      (result = .error fault ∧ after = memory) ∨
        ∃ a, result = .ok a ∧ (next a).run memory = .error fault after := by
  cases result with
  | ok a =>
    change (next a).run memory = .error fault after ↔ _
    simp
  | error other =>
    change EStateM.Result.error other memory = .error fault after ↔ _
    simp [eq_comm]

theorem outcome_eq_error_iff {change : Change Unit} :
    change.outcome memory = .error fault ↔ ∃ after, change.run memory = .error fault after := by
  rw [outcome]
  cases change.run memory <;> simp

end Change

namespace Codec

open Change LittleEndian

variable {memory : Bytes} {r : ResolvedAddress} {value : Scalar} {fault : Fault}

/-- The failures of encoding a value that the monitor does not report: a value that is no number is
to be an integer, a number is too large for a floating-point number of the address, or an integer
that does not fit is too long to be named. -/
inductive Escapes (r : ResolvedAddress) : Scalar → Fault → Prop where
  | notANumber {x : Double} (hreal : r.type.isReal = false) (hview : x.view = .notANumber) :
      Escapes r (.real x) .integerOfNaN
  | unnamed {n : Int} (hreal : r.type.isReal = false) (hfits : ¬ FitsIn r n) (hlong : IsLong n) :
      Escapes r (.int n) (.doesNotFit (.int n) r.type)
  | beyondDoubles {n : Int} (hreal : r.type.isReal) (hlarge : 2 ^ 1024 - 2 ^ 970 ≤ |n|) :
      Escapes r (.int n) .integerTooLarge
  | beyondSingles {value : Scalar} {x : Double} (hreal : r.type.isReal) (hsize : r.size = 4)
      (hx : value.toDouble = .ok x) (hfinite : x.isFinite)
      (hlarge : 2 ^ 128 - 2 ^ 103 ≤ |x.toRat|) : Escapes r value .singleTooLarge

theorem toDouble_eq_error_iff : value.toDouble = .error fault ↔
    ∃ n, value = .int n ∧ 2 ^ 1024 - 2 ^ 970 ≤ |n| ∧ fault = .integerTooLarge := by
  cases value with
  | int n =>
    simp only [Scalar.toDouble, Double.ofInt?_eq_error_iff, Scalar.int.injEq, exists_eq_left']
  | bool b => exact ⟨nofun, nofun⟩
  | real x => exact ⟨nofun, nofun⟩

theorem encodeReal_eq_error_iff {size : Int} (hwidth : size = 4 ∨ size = 8) :
    encodeReal size value = .error fault ↔ value.toDouble = .error fault ∨
      (size = 4 ∧ fault = .singleTooLarge ∧ ∃ x, value.toDouble = .ok x ∧
        Single.ofDouble? x = none) := by
  cases hx : value.toDouble with
  | error other =>
    obtain rfl | rfl := hwidth
    · simp [encodeReal, hx, bind, Except.bind]
    · simp [encodeReal, hx, bind, Except.bind]
  | ok x =>
    obtain rfl | rfl := hwidth
    · cases hsingle : Single.ofDouble? x with
      | none =>
        simp [encodeReal, hx, hsingle, bind, Except.bind, throw, throwThe, MonadExceptOf.throw,
          eq_comm]
      | some bits => simp [encodeReal, hx, hsingle, bind, Except.bind, pure, Except.pure]
    · simp [encodeReal, hx, bind, Except.bind, pure, Except.pure]

/-- A value that no floating-point number is near enough to escapes. -/
theorem escapes_iff_of_isReal (hreal : r.type.isReal) (hwidth : r.size = 4 ∨ r.size = 8) :
    (encode r value = .error fault ∧ ¬ fault.Reported) ↔ Escapes r value fault := by
  rw [encode, if_pos hreal, encodeReal_eq_error_iff hwidth, toDouble_eq_error_iff]
  constructor
  · rintro ⟨⟨n, rfl, hlarge, rfl⟩ | ⟨hsize, rfl, x, hx, hnone⟩, -⟩
    · exact .beyondDoubles hreal hlarge
    · obtain ⟨hfinite, hlarge⟩ := Single.ofDouble?_eq_none_iff.1 hnone
      exact .beyondSingles hreal hsize hx hfinite hlarge
  · intro hescapes
    cases hescapes with
    | notANumber hother => simp [hreal] at hother
    | unnamed hother => simp [hreal] at hother
    | @beyondDoubles n _ hlarge => exact ⟨.inl ⟨n, rfl, hlarge, rfl⟩, Fault.not_reported rfl⟩
    | @beyondSingles _ x _ hsize hx hfinite hlarge =>
      have hnone := Single.ofDouble?_eq_none_iff.2 ⟨hfinite, hlarge⟩
      exact ⟨.inr ⟨hsize, rfl, x, hx, hnone⟩, Fault.not_reported rfl⟩

/-- A value is refused as an integer if it is no number, or as one that does not fit. -/
theorem encodeInteger_eq_error_iff (hsize : 1 ≤ r.size) :
    encodeInteger r value = .error fault ↔
      (value.view = .notANumber ∧ fault = .integerOfNaN) ∨
        (value.view ≠ .notANumber ∧ fault = .doesNotFit value r.type ∧
          ∀ n, value.toInt = .ok n → ¬ FitsIn r n) := by
  cases hview : value.view with
  | notANumber =>
    have hvalue : value.toInt = .error .integerOfNaN :=
      Scalar.toInt_eq_error_iff.2 (by rw [hview]; rfl)
    simp [encodeInteger, hvalue, eq_comm]
  | infinite negative =>
    have hvalue : value.toInt = .error .integerOfInfinity :=
      Scalar.toInt_eq_error_iff.2 (by rw [hview]; rfl)
    simp [encodeInteger, hvalue, eq_comm]
  | finite q =>
    obtain ⟨n, hvalue⟩ : ∃ n, value.toInt = .ok n := by
      cases hvalue : value.toInt with
      | ok n => exact ⟨n, rfl⟩
      | error other =>
        rw [Scalar.toInt_eq_error_iff, hview] at hvalue
        cases hvalue
    by_cases hfits : FitsIn r n
    · rw [encodeInteger_of_fitsIn hsize hvalue hfits]
      refine ⟨by rintro ⟨⟩, ?_⟩
      rintro (⟨⟨⟩, -⟩ | ⟨-, -, hnot⟩)
      exact absurd hfits (hnot n hvalue)
    · rw [encodeInteger_of_not_fitsIn hsize hvalue hfits]
      constructor
      · rintro ⟨⟩
        refine .inr ⟨by simp, rfl, fun m hm => ?_⟩
        obtain rfl := Except.ok.inj (hvalue.symm.trans hm)
        exact hfits
      · rintro (⟨⟨⟩, -⟩ | ⟨-, rfl, -⟩)
        rfl

theorem view_eq_notANumber_iff :
    value.view = .notANumber ↔ ∃ x : Double, value = .real x ∧ x.view = .notANumber := by
  cases value <;> simp [Scalar.view]

/-- A value that is no number escapes from being an integer, and so does one that is refused and has
no name. -/
theorem escapes_iff_of_not_isReal (hreal : r.type.isReal = false) (hsize : 1 ≤ r.size) :
    (encode r value = .error fault ∧ ¬ fault.Reported) ↔ Escapes r value fault := by
  rw [encode, if_neg (by simp [hreal]), encodeInteger_eq_error_iff hsize, view_eq_notANumber_iff]
  constructor
  · rintro ⟨⟨⟨x, rfl, hview⟩, rfl⟩ | ⟨-, rfl, hfits⟩, hunreported⟩
    · exact .notANumber hreal hview
    · simp only [Fault.reported_doesNotFit_iff, not_forall, not_not] at hunreported
      obtain ⟨n, rfl, hlong⟩ := hunreported
      exact .unnamed hreal (hfits n rfl) hlong
  · intro hescapes
    cases hescapes with
    | @notANumber x _ hview => exact ⟨.inl ⟨⟨x, rfl, hview⟩, rfl⟩, Fault.not_reported rfl⟩
    | @unnamed n _ hfits hlong =>
      refine ⟨.inr ⟨by simp [Scalar.view], rfl, ?_⟩, fun hreported => ?_⟩
      · rintro m ⟨⟩
        exact hfits
      · exact Fault.reported_doesNotFit_iff.1 hreported n rfl hlong
    | beyondDoubles hother => simp [hreal] at hother
    | beyondSingles hother => simp [hreal] at hother

/-- An address of some bytes, as many as floating-point numbers have if it is one of them, and a
single one if it is that of a bit. -/
structure Sized (r : ResolvedAddress) : Prop where
  size : 1 ≤ r.size
  width : r.type.isReal → r.size = 4 ∨ r.size = 8
  bit : ∀ bit, r.bit = some bit → r.size = 1 ∧ ¬ IsLong bit

theorem Sized.escapes_iff (h : Sized r) :
    (encode r value = .error fault ∧ ¬ fault.Reported) ↔ Escapes r value fault := by
  cases hreal : r.type.isReal with
  | true => exact escapes_iff_of_isReal hreal (h.width hreal)
  | false => exact escapes_iff_of_not_isReal hreal h.size

/-- The failures of a write that the monitor does not report: a value cannot be encoded and that is
not reported, or the place outside the image is too far off to be named. -/
inductive WriteEscapes (memory : Bytes) (r : ResolvedAddress) (value : Scalar) : Fault → Prop where
  | value {fault : Fault} (hindex : r.bit = none) (hstart : 0 ≤ r.address)
      (hstop : r.stop ≤ memory.size) (hvalue : Escapes r value fault) :
      WriteEscapes memory r value fault
  | place (hbit : ∀ bit, r.bit = some bit → 0 ≤ bit ∧ bit ≤ 7)
      (houtside : ¬ (0 ≤ r.address ∧ r.stop ≤ memory.size))
      (hlong : IsLong r.size ∨ IsLong r.address) :
      WriteEscapes memory r value (.outsideMemory r.size r.address memory.size)

theorem checkBit_eq_error_iff {bit : Int} :
    checkBit bit = .error fault ↔ ¬ (0 ≤ bit ∧ bit ≤ 7) ∧ fault = .bitOutOfRange bit := by
  by_cases hbit : 0 ≤ bit ∧ bit ≤ 7
  · simp [checkBit_of_legal hbit, hbit]
  · rw [checkBit_of_not_legal hbit, Except.error.injEq, eq_comm, and_iff_right hbit]

theorem window_eq_error_iff {address size : Int} :
    memory.window address size = .error fault ↔
      ¬ (0 ≤ address ∧ address + size ≤ memory.size) ∧
        fault = .outsideMemory size address memory.size := by
  by_cases hinside : 0 ≤ address ∧ address + size ≤ memory.size
  · simp [Bytes.window_of_inside hinside.1 hinside.2, hinside]
  · rw [Bytes.window_of_outside hinside, Except.error.injEq, eq_comm, and_iff_right hinside]

/-- A bit is refused if it is none of a byte, or if its byte lies outside the image. -/
theorem write_bit_eq_error_iff {bit : Int} (hindex : r.bit = some bit) :
    write memory r value = .error fault ↔
      (¬ (0 ≤ bit ∧ bit ≤ 7) ∧ fault = .bitOutOfRange bit) ∨
        ((0 ≤ bit ∧ bit ≤ 7) ∧ ¬ (0 ≤ r.address ∧ r.address + 1 ≤ memory.size) ∧
          fault = .outsideMemory 1 r.address memory.size) := by
  have hfirst (hinside : 0 ≤ r.address ∧ r.address + 1 ≤ memory.size) :
      ∃ b, firstByte (memory.slice r.address (r.address + 1)) = .ok b := by
    have hb := Array.getElem?_eq_getElem (show r.address.toNat < memory.size by omega)
    exact ⟨_, firstByte_eq_ok_iff.2 ((getElem?_window hinside.1 hinside.2).trans hb)⟩
  simp only [write, outcome_eq_error_iff, put, hindex, putBitAt, Option.getD_some, run_get_bind,
    require_bind_eq_error_iff, checkBit_eq_error_iff, checkBit_eq_ok_iff, window_eq_error_iff,
    window_eq_ok_iff]
  constructor
  · rintro ⟨_, ⟨hbit, -⟩ | ⟨_, ⟨hbit, -⟩, ⟨houtside, -⟩ | ⟨_, ⟨hinside, rfl⟩, hlast⟩⟩⟩
    · exact .inl hbit
    · exact .inr ⟨hbit, houtside⟩
    · obtain ⟨b, hb⟩ := hfirst hinside
      rw [hb] at hlast
      obtain ⟨⟨⟩, -⟩ | ⟨_, -, ⟨⟩⟩ := hlast
  · rintro (hbit | ⟨hbit, houtside⟩)
    · exact ⟨memory, .inl ⟨hbit, rfl⟩⟩
    · exact ⟨memory, .inr ⟨_, ⟨hbit, rfl⟩, .inl ⟨houtside, rfl⟩⟩⟩

/-- A whole value is refused if it lies outside the image or cannot be encoded. -/
theorem write_whole_eq_error_iff (hindex : r.bit = none) :
    write memory r value = .error fault ↔
      (¬ (0 ≤ r.address ∧ r.stop ≤ memory.size) ∧
          fault = .outsideMemory r.size r.address memory.size) ∨
        ((0 ≤ r.address ∧ r.stop ≤ memory.size) ∧ encode r value = .error fault) := by
  simp only [write, outcome_eq_error_iff, put, hindex, run_get_bind, require_bind_eq_error_iff,
    window_eq_error_iff, window_eq_ok_iff, ResolvedAddress.stop]
  constructor
  · rintro ⟨_, ⟨houtside, -⟩ | ⟨_, ⟨hinside, -⟩, ⟨hvalue, -⟩ | ⟨_, -, ⟨⟩⟩⟩⟩
    · exact .inl houtside
    · exact .inr ⟨hinside, hvalue⟩
  · rintro (houtside | ⟨hinside, hvalue⟩)
    · exact ⟨memory, .inl ⟨houtside, rfl⟩⟩
    · exact ⟨memory, .inr ⟨_, ⟨hinside, rfl⟩, .inl ⟨hvalue, rfl⟩⟩⟩

/-- A bit that is not written is reported, unless its byte is too far off to be named. -/
theorem Sized.writeEscapes_iff_of_bit {bit : Int} (h : Sized r) (hindex : r.bit = some bit) :
    (write memory r value = .error fault ∧ ¬ fault.Reported) ↔
      WriteEscapes memory r value fault := by
  obtain ⟨hsize, hshort⟩ := h.bit bit hindex
  have hstop : r.stop = r.address + 1 := by rw [ResolvedAddress.stop, hsize]
  rw [write_bit_eq_error_iff hindex]
  constructor
  · rintro ⟨⟨-, rfl⟩ | ⟨hbit, houtside, rfl⟩, hunreported⟩
    · exact absurd (Fault.reported_bitOutOfRange_iff.2 hshort) hunreported
    · rw [Fault.reported_outsideMemory_iff, not_not, ← hsize] at hunreported
      rw [← hstop] at houtside
      rw [← hsize]
      refine .place ?_ houtside hunreported
      rintro other hother
      obtain rfl := Option.some.inj (hindex.symm.trans hother)
      exact hbit
  · intro hescapes
    cases hescapes with
    | value hwhole => simp [hindex] at hwhole
    | place hbit houtside hlong =>
      rw [hstop] at houtside
      refine ⟨.inr ⟨hbit bit hindex, houtside, by rw [hsize]⟩, fun hreported => ?_⟩
      exact Fault.reported_outsideMemory_iff.1 hreported hlong

theorem Sized.writeEscapes_iff_of_whole (h : Sized r) (hindex : r.bit = none) :
    (write memory r value = .error fault ∧ ¬ fault.Reported) ↔
      WriteEscapes memory r value fault := by
  rw [write_whole_eq_error_iff hindex]
  constructor
  · rintro ⟨⟨houtside, rfl⟩ | ⟨hinside, hvalue⟩, hunreported⟩
    · rw [Fault.reported_outsideMemory_iff, not_not] at hunreported
      refine .place ?_ houtside hunreported
      simp [hindex]
    · exact .value hindex hinside.1 hinside.2 (h.escapes_iff.1 ⟨hvalue, hunreported⟩)
  · intro hescapes
    cases hescapes with
    | value _ hstart hstop hvalue =>
      obtain ⟨hfault, hunreported⟩ := h.escapes_iff.2 hvalue
      exact ⟨.inr ⟨⟨hstart, hstop⟩, hfault⟩, hunreported⟩
    | place _ houtside hlong =>
      refine ⟨.inl ⟨houtside, rfl⟩, fun hreported => ?_⟩
      exact Fault.reported_outsideMemory_iff.1 hreported hlong

theorem Sized.writeEscapes_iff (h : Sized r) :
    (write memory r value = .error fault ∧ ¬ fault.Reported) ↔
      WriteEscapes memory r value fault := by
  cases hindex : r.bit with
  | some bit => exact h.writeEscapes_iff_of_bit hindex
  | none => exact h.writeEscapes_iff_of_whole hindex

end Codec

end LadderMonitor
