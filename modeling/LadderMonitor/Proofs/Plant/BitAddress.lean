import LadderMonitor.Proofs.Plant.AddressLanguage

namespace LadderMonitor

namespace AddressNumber

/-- A byte and a bit as a direct address writes them. -/
def ofBit (byte bit : Nat) : AddressNumber := ⟨Nat.toDigits 10 byte, some [Nat.digitChar bit]⟩

variable {byte bit : Nat}

theorem isDigit_of_mem_toDigits {c : Char} (h : c ∈ Nat.toDigits 10 byte) :
    Numeral.isDigit c := by
  have hdigit := Nat.isDigit_of_mem_toDigits (by decide) (by decide) h
  rw [Char.isDigit_iff_toNat] at hdigit
  rw [Numeral.isDigit, Bool.and_eq_true, decide_eq_true_iff, decide_eq_true_iff]
  exact hdigit

theorem wellFormed_ofBit (hbit : bit ≤ 7) : (ofBit byte bit).WellFormed := by
  have hdigits : ∀ bit ≤ 7, Numeral.isDigit (Nat.digitChar bit) := by decide
  refine ⟨⟨Nat.toDigits_ne_nil, fun c => isDigit_of_mem_toDigits⟩, fun digits hsome => ?_⟩
  obtain rfl := Option.some.inj hsome
  exact ⟨List.cons_ne_nil _ _, List.forall_mem_singleton.2 (hdigits bit hbit)⟩

theorem value_ofBit (hbit : bit ≤ 7) :
    Numeral.value (Nat.toDigits 10 byte ++ [Nat.digitChar bit]) = 10 * byte + bit := by
  rw [Numeral.value_eq_ofDigitChars, Nat.ofDigitChars_append, Nat.ofDigitChars_ten_toDigits,
    Nat.ofDigitChars_cons_digitChar_of_lt_ten (by omega), Nat.ofDigitChars_nil]

/-- The number that a byte and a bit are read as is the nearest one. -/
theorem nearest_byteBit (hbyte : byte < 2 ^ 49) (hbit : bit ≤ 7) :
    (byteBit (Nat.toDigits 10 byte) [Nat.digitChar bit]).Nearest (byte + bit / 10) := by
  have hquotient : ((10 * byte + bit : Nat) : Rat) / (Nat.pow 10 1 : Nat) = byte + bit / 10 := by
    push_cast
    norm_num
    ring
  have hless : ((10 * byte + bit : Nat) : Rat) / (Nat.pow 10 1 : Nat) < 2 ^ (1023 : Int) := by
    have hnext : (byte : Rat) + 1 ≤ 2 ^ (49 : Int) := by exact_mod_cast hbyte
    have hdigit : (bit : Rat) ≤ 7 := by exact_mod_cast hbit
    calc _ = (byte : Rat) + bit / 10 := hquotient
      _ < 2 ^ (49 : Int) := by linarith
      _ ≤ 2 ^ (1023 : Int) := zpow_le_zpow_right₀ one_le_two (by decide)
  have hfinite : (Double.ofRatio false (10 * byte + bit) (Nat.pow 10 1)).isFinite :=
    Double.isFinite_ofRatio (by decide) hless
  have hnearest := Double.nearest_ofRatio (by decide) hfinite
  rw [byteBit, value_ofBit hbit]
  rwa [if_neg Bool.false_ne_true, hquotient] at hnearest

theorem locate_ofBit (hbyte : byte < 2 ^ 49) (hbit : bit ≤ 7) (base unit : Int) :
    (ofBit byte bit).locate base unit = .ok ⟨base + byte * unit, 1, some bit, .bit⟩ := by
  rw [locate_of_fraction rfl]
  have hsplit := Scalar.splitByteBit_of_nearest hbyte hbit (nearest_byteBit hbyte hbit)
  simp only [ofBit, hsplit]
  rfl

end AddressNumber

/-- A byte and a bit with a point between them. -/
def bitText (byte bit : Nat) : String := toString byte ++ "." ++ toString bit

theorem toList_bitText {byte bit : Nat} (hbit : bit ≤ 7) :
    (bitText byte bit).toList = (AddressNumber.ofBit byte bit).chars := by
  have hdigit : Nat.toDigits 10 bit = [Nat.digitChar bit] := Nat.toDigits_of_lt_base (by omega)
  simp [bitText, AddressNumber.chars, AddressNumber.ofBit, hdigit]

theorem Numeral.not_isBlank_of_isDigit {c : Char} (h : Numeral.isDigit c) :
    Text.isBlank c = false := by
  rw [Numeral.isDigit, Bool.and_eq_true, decide_eq_true_iff, decide_eq_true_iff] at h
  have hlow : 48 ≤ c.toNat := h.1
  have hhigh : c.toNat ≤ 57 := h.2
  simp [Text.isBlank, Text.isWhite, Text.whiteRanges]
  omega

theorem AddressNumber.WellFormed.not_isBlank {number : AddressNumber} (h : number.WellFormed)
    {c : Char} (hc : c ∈ number.chars) : Text.isBlank c = false := by
  rw [chars] at hc
  split at hc
  · exact Numeral.not_isBlank_of_isDigit (h.whole.2 c hc)
  · rename_i digits hfraction
    rcases List.mem_append.1 hc with hwhole | hrest
    · exact Numeral.not_isBlank_of_isDigit (h.whole.2 c hwhole)
    · rcases List.mem_cons.1 hrest with rfl | hdigit
      · decide
      · exact Numeral.not_isBlank_of_isDigit ((h.fraction digits hfraction).2 c hdigit)

namespace Project

variable {p : Project} {cs : List Char} {number : AddressNumber} {base unit : Int} {text : String}

theorem Plain.not_isBlank (h : p.Plain cs base unit number) : ∀ c ∈ cs, Text.isBlank c = false := by
  cases h with
  | bare h => exact fun c => h.not_isBlank
  | lettered hletter h =>
    have hunits : ∀ entry ∈ AddressLetter.units, Text.isBlank entry.1 = false := by decide
    exact List.forall_mem_cons.2 ⟨hunits _ hletter, fun c => h.not_isBlank⟩

/-- A direct address is resolved to the place of its number. -/
theorem Plain.resolve_eq (h : p.Plain text.toList base unit number)
    (hname : ∀ s ∈ p.symbols, s.name ≠ text) :
    p.resolve (.text text) = some <$> number.locate base unit := by
  have hstrip : Text.strip text = text.toList := Text.trimBoth_eq_self
    (fun c hc => h.not_isBlank c (List.mem_of_mem_head? hc))
    (fun c hc => h.not_isBlank c (List.mem_of_mem_getLast? hc))
  rw [resolve_direct_of_no_name (symbol?_eq_none_iff.2 hname), hstrip, resolveDirect_of_plain h]

/-- A bit symbol is resolved to the byte and the bit that its address is nearest to. -/
theorem resolve_bitSymbol {byte bit : Nat} (hbyte : byte < 2 ^ 49) (hbit : bit ≤ 7) {s : Symbol}
    {x : Double} (htype : s.type = .bit) (haddress : s.address = .real x)
    (hx : x.Nearest (byte + bit / 10)) :
    p.resolve (.symbol s) = .ok (some ⟨p.offsets.base s.location + byte, 1, some bit, .bit⟩) := by
  have hsplit := Scalar.splitByteBit_of_nearest hbyte hbit hx
  rw [resolve, resolveSymbol, if_pos htype, haddress, hsplit]
  rfl

/-- A bit address survives the detour through a floating-point number: behind a letter it is that
bit of that unit of the region, without a letter that bit of that byte, and a bit symbol whose
address is a number nearest to the byte and the tenths of the bit lies at that bit of that byte of
its region. -/
theorem bit_address_survives {byte bit : Nat} (hbyte : byte < 2 ^ 49) (hbit : bit ≤ 7)
    (p : Project) :
    (∀ letter region unit, (letter, region, unit) ∈ AddressLetter.units →
      (∀ s ∈ p.symbols, s.name ≠ String.singleton letter ++ bitText byte bit) →
      p.resolve (.text (String.singleton letter ++ bitText byte bit)) =
        .ok (some ⟨p.offsets.base region + byte * unit, 1, some bit, .bit⟩)) ∧
    ((∀ s ∈ p.symbols, s.name ≠ bitText byte bit) →
      p.resolve (.text (bitText byte bit)) = .ok (some ⟨byte, 1, some bit, .bit⟩)) ∧
    ∀ (s : Symbol) (x : Double), s.type = .bit → s.address = .real x →
      x.Nearest (byte + bit / 10) →
      p.resolve (.symbol s) = .ok (some ⟨p.offsets.base s.location + byte, 1, some bit, .bit⟩) := by
  have hnumber : (AddressNumber.ofBit byte bit).WellFormed := AddressNumber.wellFormed_ofBit hbit
  have hchars : (bitText byte bit).toList = (AddressNumber.ofBit byte bit).chars :=
    toList_bitText hbit
  refine ⟨fun letter region unit hletter hname => ?_, fun hname => ?_,
    fun s x htype haddress hx => ?_⟩
  · have hplain : p.Plain (String.singleton letter ++ bitText byte bit).toList
        (p.offsets.base region) unit (AddressNumber.ofBit byte bit) := by
      rw [String.toList_append, String.toList_singleton, hchars]
      exact .lettered hletter hnumber
    rw [hplain.resolve_eq hname, AddressNumber.locate_ofBit hbyte hbit]
    rfl
  · have hplain : p.Plain (bitText byte bit).toList 0 1 (AddressNumber.ofBit byte bit) := by
      rw [hchars]
      exact .bare hnumber
    rw [hplain.resolve_eq hname, AddressNumber.locate_ofBit hbyte hbit, Int.zero_add, Int.mul_one]
    rfl
  · exact resolve_bitSymbol hbyte hbit htype haddress hx

/-- The last byte index and the last bit. -/
theorem last_marker_bit_survives :
    empty.resolve (.text "M562949953421311.7") =
        .ok (some ⟨562949953421503, 1, some 7, .bit⟩) ∧
      Project.empty.resolve (.symbol ⟨"lamp", .output, .bit,
        .real (Double.ofRat (562949953421311 + 7 / 10)), .int 0, ""⟩) =
        .ok (some ⟨562949953421439, 1, some 7, .bit⟩) := by
  have hbyte : 562949953421311 < 2 ^ 49 := by decide
  obtain ⟨hletter, -, hsymbol⟩ := bit_address_survives hbyte (Nat.le_refl 7) empty
  have hnearest : (Double.ofRat (562949953421311 + 7 / 10)).Nearest
      ((562949953421311 : Nat) + (7 : Nat) / 10) :=
    Double.nearest_ofRat (by decide +kernel)
  exact ⟨hletter 'M' .marker 1 (by decide) (List.forall_mem_nil _),
    hsymbol _ _ rfl rfl hnearest⟩

end Project

end LadderMonitor
