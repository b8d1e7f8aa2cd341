import LadderMonitor.Plant.Resolution
import LadderMonitor.Proofs.Numeric.Conversion
import LadderMonitor.Proofs.Outcome
import Mathlib.Data.List.TakeWhile

namespace LadderMonitor

namespace AddressNumber

/-- A run of digits that is not empty. -/
def IsDigits (digits : List Char) : Prop := digits ≠ [] ∧ ∀ c ∈ digits, Numeral.isDigit c

/-- A number has digits in front of its point, and behind it if it has one. -/
structure WellFormed (number : AddressNumber) : Prop where
  whole : IsDigits number.whole
  fraction : ∀ digits, number.fraction = some digits → IsDigits digits

/-- How a number is written. -/
def chars (number : AddressNumber) : List Char :=
  match number.fraction with
  | none => number.whole
  | some digits => number.whole ++ '.' :: digits

variable {number : AddressNumber} {cs : List Char} {fault : Fault}

theorem parse?_chars (h : number.WellFormed) : parse? number.chars = some number := by
  obtain ⟨whole, fraction⟩ := number
  obtain ⟨⟨hnonempty, hwhole⟩, hfraction⟩ := h
  obtain ⟨c, rest, rfl⟩ := List.exists_cons_of_ne_nil hnonempty
  cases fraction with
  | none =>
    have htake := List.takeWhile_eq_self_iff.2 hwhole
    have hdrop := List.dropWhile_eq_nil_iff.2 hwhole
    simp only [parse?, chars, htake, hdrop]
  | some digits =>
    obtain ⟨hdigits, hall⟩ := hfraction digits rfl
    have hpoint : ¬ Numeral.isDigit '.' = true := by decide
    have htake : (c :: rest ++ '.' :: digits).takeWhile Numeral.isDigit = c :: rest := by
      rw [List.takeWhile_append_of_pos hwhole, List.takeWhile_cons_of_neg hpoint,
        List.append_nil]
    have hdrop : (c :: rest ++ '.' :: digits).dropWhile Numeral.isDigit = '.' :: digits := by
      rw [List.dropWhile_append_of_pos hwhole, List.dropWhile_cons_of_neg hpoint]
    have hread : (!digits.isEmpty && digits.all Numeral.isDigit) = true := by
      simpa [hdigits] using hall
    simp only [parse?, chars, htake, hdrop, hread, if_true]

theorem head_mem_whole {c : Char} {rest : List Char} (h : number.WellFormed)
    (hcs : number.chars = c :: rest) : c ∈ number.whole := by
  obtain ⟨whole, fraction⟩ := number
  obtain ⟨⟨hnonempty, -⟩, -⟩ := h
  obtain ⟨first, others, rfl⟩ := List.exists_cons_of_ne_nil hnonempty
  have hfirst : first = c := by
    cases fraction <;> simp_all [chars]
  exact hfirst ▸ List.mem_cons_self

/-- The texts that are read as numbers are those that are written for numbers. -/
theorem parse?_eq_some_iff : parse? cs = some number ↔ number.WellFormed ∧ cs = number.chars := by
  constructor
  · intro hparse
    have hsplit : cs.takeWhile Numeral.isDigit ++ cs.dropWhile Numeral.isDigit = cs :=
      List.takeWhile_append_dropWhile
    have hall : ∀ c ∈ cs.takeWhile Numeral.isDigit, Numeral.isDigit c :=
      fun c hc => List.mem_takeWhile_imp hc
    unfold parse? at hparse
    simp only at hparse
    split at hparse
    · cases hparse
    · rename_i hrest hnonempty
      obtain rfl := Option.some.inj hparse
      rw [hrest, List.append_nil] at hsplit
      exact ⟨⟨⟨hnonempty, hall⟩, by simp⟩, hsplit.symm⟩
    · rename_i digits hrest hnonempty
      split at hparse
      · rename_i hdigits
        obtain rfl := Option.some.inj hparse
        simp only [Bool.and_eq_true, Bool.not_eq_true', List.isEmpty_eq_false_iff,
          List.all_eq_true] at hdigits
        rw [hrest] at hsplit
        exact ⟨⟨⟨hnonempty, hall⟩, fun _ hsome => Option.some.inj hsome ▸ hdigits⟩, hsplit.symm⟩
      · cases hparse
    · cases hparse
  · rintro ⟨hwell, rfl⟩
    exact parse?_chars hwell

/-- Why a number names no place: it has too many digits to be read as an integer, or no finite
number is near it. -/
inductive Flaw (number : AddressNumber) : Fault → Prop where
  | tooLong (hwhole : number.fraction = none) (hlong : digitLimit < number.whole.length) :
      Flaw number (.tooManyDigits number.whole.length)
  | tooLarge (digits : List Char) (hfraction : number.fraction = some digits)
      (hlarge : (byteBit number.whole digits).isInfinite) : Flaw number .integerOfInfinity

theorem locate_eq_error_iff {base unit : Int} :
    number.locate base unit = .error fault ↔ number.Flaw fault := by
  cases hfraction : number.fraction with
  | none =>
    have hlocate : number.locate base unit =
        (integer number.whole >>= fun n => .ok ⟨base + n * unit, unit, none, .byte⟩) := by
      rw [locate, hfraction]
      rfl
    rw [hlocate, bind_ok_eq_error_iff, integer]
    constructor
    · intro hinteger
      split at hinteger
      · obtain rfl := Except.error.inj hinteger
        exact .tooLong hfraction ‹_›
      · cases hinteger
    · rintro (⟨-, hlong⟩ | ⟨digits, hsome, -⟩)
      · rw [if_pos hlong]
      · rw [hfraction] at hsome
        cases hsome
  | some digits =>
    have hlocate : number.locate base unit =
        ((Scalar.real (byteBit number.whole digits)).splitByteBit >>= fun place =>
          .ok ⟨base + place.1 * unit, 1, some place.2, .bit⟩) := by
      rw [locate, hfraction]
      rfl
    rw [hlocate, bind_ok_eq_error_iff, Scalar.splitByteBit_eq_error_iff, Scalar.view, byteBit,
      Double.flaw?_view_ofRatio]
    constructor
    · intro hflaw
      split at hflaw
      · obtain rfl := Option.some.inj hflaw
        exact .tooLarge digits hfraction ‹_›
      · cases hflaw
    · rintro (⟨hnone, -⟩ | ⟨digits', hsome, hlarge⟩)
      · rw [hfraction] at hnone
        cases hnone
      · rw [hfraction] at hsome
        obtain rfl := Option.some.inj hsome
        rw [byteBit] at hlarge
        rw [if_pos hlarge]

end AddressNumber

namespace AddressLetter

/-- The letters that may stand in front of a number: seven in either case, and two characters that
count as one of them without regard to case. -/
inductive Written : Char → AddressLetter → Prop where
  | capital {c : Char} {region : Region} (h : (c, region) ∈ regions) : Written c (.region region)
  | small {c : Char} {region : Region} (h : (c, region) ∈ regions) :
      Written c.toLower (.region region)
  | longS : Written '\u017f' (.region .system)
  | kelvin : Written '\u212a' (.nameless '\u212a')

theorem toLower_capital {c : Char} (hlow : 'a' ≤ c) (hhigh : c ≤ 'z') :
    (Char.ofNat (c.toNat - 32)).toLower = c := by
  have hletters : ∀ n < 26, (Char.ofNat (65 + n)).toLower = Char.ofNat (97 + n) := by decide
  have hle : 97 ≤ c.toNat := hlow
  have hge : c.toNat ≤ 122 := hhigh
  have hletter := hletters (c.toNat - 97) (by omega)
  rwa [show 65 + (c.toNat - 97) = c.toNat - 32 by omega,
    show 97 + (c.toNat - 97) = c.toNat by omega, Char.ofNat_toNat] at hletter

theorem ofChar?_eq_some_iff {c : Char} {letter : AddressLetter} :
    ofChar? c = some letter ↔ Written c letter := by
  constructor
  · intro hletter
    unfold ofChar? at hletter
    simp only at hletter
    split at hletter
    · rename_i hkelvin
      obtain rfl : c = '\u212a' := Char.toNat_inj.1 hkelvin
      obtain rfl := Option.some.inj hletter
      exact .kelvin
    · obtain ⟨region, hlookup, rfl⟩ := Option.map_eq_some_iff.1 hletter
      obtain ⟨before, after, hregions, -⟩ := List.lookup_eq_some_iff.1 hlookup
      have hmem : (_, region) ∈ regions :=
        hregions ▸ List.mem_append_right before List.mem_cons_self
      split at hmem
      · rename_i hsmall
        simp only [Bool.and_eq_true, decide_eq_true_eq] at hsmall
        have h := Written.small hmem
        rwa [toLower_capital hsmall.1 hsmall.2] at h
      · split at hmem
        · rename_i hlong
          obtain rfl : c = '\u017f' := Char.toNat_inj.1 hlong
          obtain rfl : region = .system := by
            simpa [regions] using hmem
          exact .longS
        · exact .capital hmem
  · have hregions : ∀ entry ∈ regions, ofChar? entry.1 = some (.region entry.2) ∧
        ofChar? entry.1.toLower = some (.region entry.2) := by decide
    rintro (hmem | hmem | _ | _)
    · exact (hregions _ hmem).1
    · exact (hregions _ hmem).2
    · decide
    · decide

theorem Written.not_isDigit {c : Char} {letter : AddressLetter} (h : Written c letter) :
    ¬ Numeral.isDigit c = true := by
  have hregions : ∀ entry ∈ regions, ¬ Numeral.isDigit entry.1 = true ∧
      ¬ Numeral.isDigit entry.1.toLower = true := by decide
  cases h with
  | capital hmem => exact (hregions _ hmem).1
  | small hmem => exact (hregions _ hmem).2
  | longS => decide
  | kelvin => decide

end AddressLetter

/-- The direct addresses: a number, and perhaps a letter in front of it. -/
inductive DirectAddress : List Char → Option AddressLetter → AddressNumber → Prop where
  | bare {number : AddressNumber} (h : number.WellFormed) : DirectAddress number.chars none number
  | lettered {c : Char} {letter : AddressLetter} {number : AddressNumber}
      (hletter : AddressLetter.Written c letter) (h : number.WellFormed) :
      DirectAddress (c :: number.chars) (some letter) number

namespace DirectAddress

/-- No number begins with a letter. -/
theorem not_lettered {number : AddressNumber} (h : number.WellFormed) (letter : AddressLetter)
    (other : AddressNumber) : ¬ DirectAddress number.chars (some letter) other := by
  intro hlettered
  generalize hcs : number.chars = cs at hlettered
  cases hlettered with
  | @lettered c _ _ hletter _ =>
    have hdigit := h.whole.2 c (AddressNumber.head_mem_whole h hcs)
    exact hletter.not_isDigit hdigit

end DirectAddress

end LadderMonitor
