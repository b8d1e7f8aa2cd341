import LadderMonitor.Proofs.Plant.BitAddress

namespace LadderMonitor

theorem Numeral.value_append_digit (digits : List Char) (c : Char) :
    value (digits ++ [c]) = 10 * value digits + (c.toNat - 48) := by
  rw [value, List.foldl_append]
  rfl

/-- Nines write the largest number of so many digits. -/
theorem Numeral.value_nines (count : Nat) : value (List.replicate count '9') + 1 = 10 ^ count := by
  induction count with
  | zero => rfl
  | succ count ih =>
    have hnine : '9'.toNat - 48 = 9 := rfl
    rw [List.replicate_succ', value_append_digit, hnine, pow_succ]
    omega

namespace AddressNumber

/-- The largest number that is read. -/
def largest : AddressNumber := ⟨List.replicate digitLimit '9', none⟩

theorem wellFormed_largest : largest.WellFormed where
  whole := by
    have hsome : List.replicate digitLimit '9' ≠ [] := by
      rw [ne_eq, List.replicate_eq_nil_iff]
      decide
    refine ⟨hsome, fun c hc => ?_⟩
    rw [List.eq_of_mem_replicate hc]
    rfl
  fraction := nofun

theorem locate_largest (base unit : Int) :
    largest.locate base unit = .ok ⟨base + (10 ^ digitLimit - 1) * unit, unit, none, .byte⟩ := by
  have hlength : ¬ digitLimit < (List.replicate digitLimit '9').length := by
    rw [List.length_replicate]
    exact lt_irrefl _
  have hvalue : (Numeral.value (List.replicate digitLimit '9') : Int) = 10 ^ digitLimit - 1 := by
    have hnines := Numeral.value_nines digitLimit
    generalize digitLimit = digits at hnines ⊢
    rw [eq_sub_iff_add_eq]
    exact_mod_cast hnines
  simp only [locate, largest, integer, if_neg hlength, hvalue]
  rfl

end AddressNumber

namespace Project

variable {p : Project}

/-- The marker byte with the largest number that is read. -/
def farMarker : String := String.ofList ('M' :: AddressNumber.largest.chars)

theorem farMarker_ne_empty : farMarker ≠ "" := by
  intro hempty
  have hchars := congrArg String.toList hempty
  rw [farMarker, String.toList_ofList] at hchars
  cases hchars

/-- Its address has one digit more than can be written out, unless markers start at zero. -/
theorem resolveText_farMarker (hname : ∀ s ∈ p.symbols, s.name ≠ farMarker)
    (hbase : 0 < p.offsets.base .marker) :
    ∃ r, p.resolveText farMarker = .ok (some r) ∧ r.size = 1 ∧ IsLong r.address := by
  have hplain : p.Plain farMarker.toList (p.offsets.base .marker) 1 .largest := by
    rw [farMarker, String.toList_ofList]
    exact .lettered (by decide) AddressNumber.wellFormed_largest
  have hresolve : p.resolveText farMarker = _ := hplain.resolve_eq hname
  rw [AddressNumber.locate_largest] at hresolve
  refine ⟨_, hresolve, rfl, ?_⟩
  simp only [IsLong, mul_one]
  change 10 ^ AddressNumber.digitLimit ≤ _
  generalize AddressNumber.digitLimit = digits
  refine le_trans ?_ (le_abs_self _)
  linarith

end Project

end LadderMonitor
