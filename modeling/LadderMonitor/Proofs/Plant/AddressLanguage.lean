import LadderMonitor.Proofs.Plant.Resolution

namespace LadderMonitor

theorem Numeral.value_eq_ofDigitChars (digits : List Char) :
    Numeral.value digits = Nat.ofDigitChars 10 digits 0 := by
  rw [Numeral.value, Nat.ofDigitChars_eq_foldl]
  rfl

theorem Text.mem_of_mem_strip {text : String} {c : Char} (h : c ∈ Text.strip text) :
    c ∈ text.toList := by
  have hback := List.mem_reverse.1 ((List.dropWhile_sublist _).subset (List.mem_reverse.1 h))
  exact (List.dropWhile_sublist _).subset hback

namespace AddressNumber

variable {number : AddressNumber} {base unit : Int} {r : ResolvedAddress}

theorem locate_of_whole (hfraction : number.fraction = none)
    (hlocate : number.locate base unit = .ok r) :
    r = ⟨base + Nat.ofDigitChars 10 number.whole 0 * unit, unit, none, .byte⟩ := by
  simp only [locate, hfraction, integer] at hlocate
  split at hlocate
  · cases hlocate
  · rw [← Numeral.value_eq_ofDigitChars]
    exact (Except.ok.inj hlocate).symm

theorem locate_of_fraction {digits : List Char} (hfraction : number.fraction = some digits) :
    number.locate base unit =
      ((Scalar.real (byteBit number.whole digits)).splitByteBit >>= fun place =>
        .ok ⟨base + place.1 * unit, 1, some place.2, .bit⟩) := by
  rw [locate, hfraction]
  rfl

theorem exists_bit_of_locate (hfraction : number.fraction ≠ none)
    (hlocate : number.locate base unit = .ok r) :
    ∃ address bit, r = ⟨address, 1, some bit, .bit⟩ := by
  obtain ⟨digits, hdigits⟩ := Option.ne_none_iff_exists'.1 hfraction
  rw [locate_of_fraction hdigits] at hlocate
  obtain ⟨place, -, hr⟩ := bind_eq_ok_iff.1 hlocate
  exact ⟨_, _, (Except.ok.inj hr).symm⟩

end AddressNumber

namespace AddressLetter

/-- The letters in front of direct addresses, each with its region and with the bytes that a number
counts there: nine for a timer, five for a counter. -/
def units : List (Char × Region × Int) :=
  [('K', .system, 1), ('k', .system, 1), ('S', .system, 1), ('s', .system, 1),
   ('C', .counter, 5), ('c', .counter, 5), ('T', .timer, 9), ('t', .timer, 9),
   ('X', .input, 1), ('x', .input, 1), ('Y', .output, 1), ('y', .output, 1),
   ('M', .marker, 1), ('m', .marker, 1)]

theorem written_of_mem_units {c : Char} {region : Region} {unit : Int}
    (h : (c, region, unit) ∈ units) : Written c (.region region) ∧ unit = region.unit := by
  have hunits : ∀ entry ∈ units, ofChar? entry.1 = some (.region entry.2.1) ∧
      entry.2.2 = entry.2.1.unit := by decide
  obtain ⟨hletter, hunit⟩ := hunits _ h
  exact ⟨ofChar?_eq_some_iff.1 hletter, hunit⟩

/-- The long s and the Kelvin sign aside, the letters that are read are the plain ones. -/
theorem Written.plain {c : Char} {letter : AddressLetter} (h : Written c letter)
    (hascii : c.toNat < 128) :
    ∃ region : Region, letter = .region region ∧ (c, region, (region.unit : Int)) ∈ units := by
  have hregions : ∀ entry ∈ regions, (entry.1, entry.2, (entry.2.unit : Int)) ∈ units ∧
      (entry.1.toLower, entry.2, (entry.2.unit : Int)) ∈ units := by decide
  cases h with
  | capital hmem => exact ⟨_, rfl, (hregions _ hmem).1⟩
  | small hmem => exact ⟨_, rfl, (hregions _ hmem).2⟩
  | longS => exact absurd hascii (by decide)
  | kelvin => exact absurd hascii (by decide)

end AddressLetter

namespace Project

variable {p : Project} {cs : List Char} {number : AddressNumber} {base unit : Int}

theorem symbol?_eq_none_iff {text : String} :
    p.symbol? text = none ↔ ∀ s ∈ p.symbols, s.name ≠ text := by
  simp [symbol?]

/-- The texts that are direct addresses, with the address from which they count in a project, the
unit in which they count, and their number. -/
inductive Plain (p : Project) : List Char → Int → Int → AddressNumber → Prop where
  | bare {number : AddressNumber} (h : number.WellFormed) : Plain p number.chars 0 1 number
  | lettered {c : Char} {region : Region} {unit : Int} {number : AddressNumber}
      (hletter : (c, region, unit) ∈ AddressLetter.units) (h : number.WellFormed) :
      Plain p (c :: number.chars) (p.offsets.base region) unit number

theorem resolveDirect_of_plain (h : p.Plain cs base unit number) :
    p.resolveDirect cs = some <$> number.locate base unit := by
  cases h with
  | bare h => exact resolveDirect_bare p h
  | lettered hletter h =>
    obtain ⟨hwritten, rfl⟩ := AddressLetter.written_of_mem_units hletter
    exact resolveDirect_lettered p hwritten h

theorem exists_plain_of_direct {letter : Option AddressLetter} (hascii : ∀ c ∈ cs, c.toNat < 128)
    (h : DirectAddress cs letter number) : ∃ base unit, p.Plain cs base unit number := by
  cases h with
  | bare h => exact ⟨0, 1, .bare h⟩
  | lettered hletter h =>
    obtain ⟨region, -, hplain⟩ := hletter.plain (hascii _ List.mem_cons_self)
    exact ⟨_, _, .lettered hplain h⟩

/-- An ASCII text that is no symbol's name and for which resolution returns has an address exactly
if, blanks around it aside, it is a number with or without a letter in front. Without a fraction the
address is counted from the offset of the letter's region in its units, or from zero in bytes, and
takes one unit; with a fraction it is that of one bit. -/
theorem direct_address_language {text : String} {result : Option ResolvedAddress}
    (hascii : ∀ c ∈ text.toList, c.toNat < 128) (hname : ∀ s ∈ p.symbols, s.name ≠ text)
    (hresolve : p.resolve (.text text) = .ok result) :
    (result.isSome ↔ ∃ base unit number, p.Plain (Text.strip text) base unit number) ∧
    ∀ base unit number, p.Plain (Text.strip text) base unit number →
      (number.fraction = none → result =
        some ⟨base + Nat.ofDigitChars 10 number.whole 0 * unit, unit, none, .byte⟩) ∧
      (number.fraction ≠ none → ∃ address bit, result = some ⟨address, 1, some bit, .bit⟩) := by
  rw [resolve_direct_of_no_name (symbol?_eq_none_iff.2 hname)] at hresolve
  have hplain (base unit : Int) (number : AddressNumber)
      (h : p.Plain (Text.strip text) base unit number) :
      ∃ r, result = some r ∧ number.locate base unit = .ok r := by
    rw [resolveDirect_of_plain h] at hresolve
    cases result with
    | none => exact absurd hresolve map_some_ne_ok_none
    | some r => exact ⟨r, rfl, map_some_eq_ok_some_iff.1 hresolve⟩
  refine ⟨⟨fun hsome => ?_, fun ⟨base, unit, number, h⟩ => ?_⟩, fun base unit number h => ?_⟩
  · by_contra hnone
    have hnot : ¬ ∃ letter number, DirectAddress (Text.strip text) letter number := by
      rintro ⟨letter, number, hdirect⟩
      obtain ⟨base, unit, h⟩ := exists_plain_of_direct (p := p)
        (fun c hc => hascii c (Text.mem_of_mem_strip hc)) hdirect
      exact hnone ⟨base, unit, number, h⟩
    rw [resolveDirect_of_not_direct p hnot] at hresolve
    obtain rfl := Except.ok.inj hresolve
    cases hsome
  · obtain ⟨r, rfl, -⟩ := hplain base unit number h
    rfl
  · obtain ⟨r, rfl, hlocate⟩ := hplain base unit number h
    constructor
    · intro hfraction
      rw [AddressNumber.locate_of_whole hfraction hlocate]
    · intro hfraction
      obtain ⟨address, bit, rfl⟩ := AddressNumber.exists_bit_of_locate hfraction hlocate
      exact ⟨address, bit, rfl⟩

/-- The seventh timer, in small letters, with a leading zero and blanks. -/
theorem seventh_timer_direct :
    (∀ c ∈ "\t t007 ".toList, c.toNat < 128) ∧ (∀ s ∈ empty.symbols, s.name ≠ "\t t007 ") ∧
      empty.resolve (.text "\t t007 ") = .ok (some ⟨511, 9, none, .byte⟩) ∧
      empty.Plain (Text.strip "\t t007 ") 448 9 ⟨['0', '0', '7'], none⟩ ∧
      (some ⟨511, 9, none, .byte⟩ : Option ResolvedAddress) =
        some ⟨448 + Nat.ofDigitChars 10 ['0', '0', '7'] 0 * 9, 9, none, .byte⟩ := by
  have hascii : ∀ c ∈ "\t t007 ".toList, c.toNat < 128 := by simp
  have hname : ∀ s ∈ empty.symbols, s.name ≠ "\t t007 " :=
    List.forall_mem_nil _
  have hresolve : empty.resolve (.text "\t t007 ") = .ok (some ⟨511, 9, none, .byte⟩) := rfl
  have hstrip : Text.strip "\t t007 " = ['t', '0', '0', '7'] := by decide
  have hnumber : (⟨['0', '0', '7'], none⟩ : AddressNumber).WellFormed :=
    ⟨⟨by decide, List.all_eq_true.1 rfl⟩, nofun⟩
  have htimer : ('t', Region.timer, (9 : Int)) ∈ AddressLetter.units := by decide
  have hplain : empty.Plain (Text.strip "\t t007 ") 448 9 ⟨['0', '0', '7'], none⟩ := by
    rw [hstrip]
    exact .lettered htimer hnumber
  obtain ⟨-, hnames⟩ := direct_address_language hascii hname hresolve
  obtain ⟨hwhole, -⟩ := hnames 448 9 ⟨['0', '0', '7'], none⟩ hplain
  exact ⟨hascii, hname, hresolve, hplain, hwhole rfl⟩

end Project

end LadderMonitor
