import LadderMonitor.Proofs.Numeric.ByteBit
import LadderMonitor.Proofs.Plant.DirectAddress
import LadderMonitor.Proofs.Report

namespace LadderMonitor

namespace Project

variable {p : Project} {cs : List Char} {c : Char} {number : AddressNumber} {fault : Fault}

/-- A text without a letter in front is read as a number. -/
theorem resolveDirect_of_not_lettered (p : Project)
    (hnot : ∀ letter number, ¬ DirectAddress cs (some letter) number) :
    p.resolveDirect cs = match AddressNumber.parse? cs with
      | some number => some <$> number.locate 0 1
      | none => .ok none := by
  cases cs with
  | nil => rfl
  | cons c rest =>
    have hlettered : (do return (← AddressLetter.ofChar? c, ← AddressNumber.parse? rest) :
        Option (AddressLetter × AddressNumber)) = none := by
      cases hchar : AddressLetter.ofChar? c with
      | none => rfl
      | some letter =>
        cases hparse : AddressNumber.parse? rest with
        | none => rfl
        | some number =>
          obtain ⟨hwell, rfl⟩ := AddressNumber.parse?_eq_some_iff.1 hparse
          have hwritten := AddressLetter.ofChar?_eq_some_iff.1 hchar
          exact absurd (.lettered hwritten hwell) (hnot letter number)
    cases hnumber : AddressNumber.parse? (c :: rest) with
    | none => simp only [resolveDirect, hlettered, hnumber]
    | some number => simp only [resolveDirect, hlettered, hnumber]

theorem resolveDirect_bare (p : Project) (h : number.WellFormed) :
    p.resolveDirect number.chars = some <$> number.locate 0 1 := by
  rw [resolveDirect_of_not_lettered p (DirectAddress.not_lettered h),
    AddressNumber.parse?_chars h]

theorem resolveDirect_lettered (p : Project) {region : Region}
    (hletter : AddressLetter.Written c (.region region)) (h : number.WellFormed) :
    p.resolveDirect (c :: number.chars) =
      some <$> number.locate (p.offsets.base region) region.unit := by
  have hchar := AddressLetter.ofChar?_eq_some_iff.2 hletter
  simp only [resolveDirect, hchar, AddressNumber.parse?_chars h, Option.bind_some, bind, pure]

theorem resolveDirect_nameless (p : Project) {sign : Char}
    (hletter : AddressLetter.Written c (.nameless sign)) (h : number.WellFormed) :
    p.resolveDirect (c :: number.chars) = .error (.letterWithoutRegion sign) := by
  have hchar := AddressLetter.ofChar?_eq_some_iff.2 hletter
  simp only [resolveDirect, hchar, AddressNumber.parse?_chars h, Option.bind_some, bind, pure]

theorem resolveDirect_of_not_direct (p : Project)
    (hnot : ¬ ∃ letter number, DirectAddress cs letter number) : p.resolveDirect cs = .ok none := by
  have hparse : AddressNumber.parse? cs = none := by
    rw [Option.eq_none_iff_forall_ne_some]
    intro number hparse
    obtain ⟨hwell, rfl⟩ := AddressNumber.parse?_eq_some_iff.1 hparse
    exact hnot ⟨none, number, .bare hwell⟩
  have hunlettered (letter : AddressLetter) (number : AddressNumber) :
      ¬ DirectAddress cs (some letter) number := fun hdirect => hnot ⟨some letter, number, hdirect⟩
  rw [resolveDirect_of_not_lettered p hunlettered, hparse]

/-- Why there is no answer for a target: the address of a symbol is no finite number, or a direct
address has a letter without a region or a number that names no place. -/
inductive Fails (p : Project) : Target → Fault → Prop where
  | symbol {s : Symbol} {fault : Fault} (hflaw : s.address.view.flaw? = some fault) :
      Fails p (.symbol s) fault
  | named {text : String} {s : Symbol} {fault : Fault} (hname : p.symbol? text = some s)
      (hflaw : s.address.view.flaw? = some fault) : Fails p (.text text) fault
  | nameless {text : String} {sign : Char} {number : AddressNumber} (hname : p.symbol? text = none)
      (hdirect : DirectAddress (Text.strip text) (some (.nameless sign)) number) :
      Fails p (.text text) (.letterWithoutRegion sign)
  | number {text : String} {letter : Option AddressLetter} {number : AddressNumber} {fault : Fault}
      (hname : p.symbol? text = none) (hdirect : DirectAddress (Text.strip text) letter number)
      (hletter : ∀ sign, letter ≠ some (.nameless sign)) (hflaw : number.Flaw fault) :
      Fails p (.text text) fault

theorem resolveSymbol_eq_error_iff {s : Symbol} :
    p.resolveSymbol s = .error fault ↔ s.address.view.flaw? = some fault := by
  by_cases htype : s.type = .bit
  · have hsymbol : p.resolveSymbol s = (s.address.splitByteBit >>= fun place =>
        .ok ⟨p.offsets.base s.location + place.1, 1, some place.2, .bit⟩) := by
      rw [resolveSymbol, if_pos htype]
      rfl
    rw [hsymbol, bind_ok_eq_error_iff, Scalar.splitByteBit_eq_error_iff]
  · have hsymbol : p.resolveSymbol s = (s.address.floor >>= fun byte =>
        .ok ⟨p.offsets.base s.location + byte, s.type.width, none, s.type⟩) := by
      rw [resolveSymbol, if_neg htype]
      rfl
    rw [hsymbol, bind_ok_eq_error_iff, Scalar.floor_eq_error_iff]

theorem map_some_eq_error_iff {α : Type} {x : Except Fault α} :
    some <$> x = .error fault ↔ x = .error fault := by
  cases x <;> simp [Functor.map, Except.map]

theorem map_some_ne_ok_none {α : Type} {x : Except Fault α} : some <$> x ≠ .ok none := by
  cases x <;> simp [Functor.map, Except.map]

theorem resolve_symbol_of_name {text : String} {s : Symbol} (hname : p.symbol? text = some s) :
    p.resolve (.text text) = some <$> p.resolveSymbol s := by
  rw [resolve, resolveText, hname]

theorem resolve_direct_of_no_name {text : String} (hname : p.symbol? text = none) :
    p.resolve (.text text) = p.resolveDirect (Text.strip text) := by
  rw [resolve, resolveText, hname]

theorem resolveDirect_eq_error_iff :
    p.resolveDirect cs = .error fault ↔
      ∃ letter number, DirectAddress cs letter number ∧
        match letter with
        | some (.nameless sign) => fault = .letterWithoutRegion sign
        | _ => number.Flaw fault := by
  constructor
  · intro herror
    by_cases hdirect : ∃ letter number, DirectAddress cs letter number
    · obtain ⟨letter, number, hdirect⟩ := hdirect
      refine ⟨letter, number, hdirect, ?_⟩
      cases hdirect with
      | bare h =>
        rw [resolveDirect_bare p h, map_some_eq_error_iff] at herror
        exact AddressNumber.locate_eq_error_iff.1 herror
      | @lettered _ letter _ hletter h =>
        cases letter with
        | region region =>
          rw [resolveDirect_lettered p hletter h, map_some_eq_error_iff] at herror
          exact AddressNumber.locate_eq_error_iff.1 herror
        | nameless sign =>
          rw [resolveDirect_nameless p hletter h] at herror
          exact (Except.error.inj herror).symm
    · rw [resolveDirect_of_not_direct p hdirect] at herror
      cases herror
  · rintro ⟨letter, number, hdirect, hfault⟩
    cases hdirect with
    | bare h =>
      rw [resolveDirect_bare p h, map_some_eq_error_iff]
      exact AddressNumber.locate_eq_error_iff.2 hfault
    | @lettered _ letter _ hletter h =>
      cases letter with
      | region region =>
        rw [resolveDirect_lettered p hletter h, map_some_eq_error_iff]
        exact AddressNumber.locate_eq_error_iff.2 hfault
      | nameless sign =>
        rw [resolveDirect_nameless p hletter h, hfault]

theorem resolveDirect_eq_ok_none_iff :
    p.resolveDirect cs = .ok none ↔ ¬ ∃ letter number, DirectAddress cs letter number := by
  constructor
  · rintro hnone ⟨letter, number, hdirect⟩
    cases hdirect with
    | bare h => exact map_some_ne_ok_none ((resolveDirect_bare p h).symm.trans hnone)
    | @lettered _ letter _ hletter h =>
      cases letter with
      | region region =>
        exact map_some_ne_ok_none ((resolveDirect_lettered p hletter h).symm.trans hnone)
      | nameless sign =>
        rw [resolveDirect_nameless p hletter h] at hnone
        cases hnone
  · exact resolveDirect_of_not_direct p

theorem resolve_eq_error_iff {target : Target} :
    p.resolve target = .error fault ↔ p.Fails target fault := by
  cases target with
  | other => exact ⟨nofun, nofun⟩
  | symbol s =>
    rw [resolve, map_some_eq_error_iff, resolveSymbol_eq_error_iff]
    constructor
    · exact .symbol
    · rintro ⟨hflaw⟩
      exact hflaw
  | text text =>
    cases hname : p.symbol? text with
    | some s =>
      rw [resolve_symbol_of_name hname, map_some_eq_error_iff, resolveSymbol_eq_error_iff]
      constructor
      · exact .named hname
      · intro hfails
        cases hfails with
        | named hname' hflaw =>
          obtain rfl := Option.some.inj (hname.symm.trans hname')
          exact hflaw
        | nameless hname' _ => cases hname.symm.trans hname'
        | number hname' _ _ _ => cases hname.symm.trans hname'
    | none =>
      rw [resolve_direct_of_no_name hname, resolveDirect_eq_error_iff]
      constructor
      · rintro ⟨letter, number, hdirect, hfault⟩
        match letter, hfault with
        | some (.nameless sign), hfault => exact hfault ▸ .nameless hname hdirect
        | some (.region region), hfault => exact .number hname hdirect (by simp) hfault
        | none, hfault => exact .number hname hdirect (by simp) hfault
      · intro hfails
        cases hfails with
        | named hname' _ => cases hname.symm.trans hname'
        | nameless _ hdirect => exact ⟨_, _, hdirect, rfl⟩
        | @number _ letter _ _ _ hdirect hletter hflaw =>
          refine ⟨letter, _, hdirect, ?_⟩
          split
          · exact absurd rfl (hletter _)
          · exact hflaw

theorem resolve_eq_ok_none_iff {target : Target} :
    p.resolve target = .ok none ↔ target = .other ∨ ∃ text, target = .text text ∧
      p.symbol? text = none ∧ ¬ ∃ letter number, DirectAddress (Text.strip text) letter number := by
  cases target with
  | other => exact ⟨fun _ => .inl rfl, fun _ => rfl⟩
  | symbol s =>
    constructor
    · exact fun hnone => absurd hnone map_some_ne_ok_none
    · rintro (hother | ⟨_, htext, -⟩)
      · cases hother
      · cases htext
  | text text =>
    constructor
    · intro hnone
      cases hname : p.symbol? text with
      | some s =>
        rw [resolve_symbol_of_name hname] at hnone
        exact absurd hnone map_some_ne_ok_none
      | none =>
        rw [resolve_direct_of_no_name hname] at hnone
        exact .inr ⟨text, rfl, hname, resolveDirect_eq_ok_none_iff.1 hnone⟩
    · rintro (hother | ⟨_, htext, hname, hdirect⟩)
      · cases hother
      · obtain rfl := Target.text.inj htext
        rw [resolve_direct_of_no_name hname]
        exact resolveDirect_eq_ok_none_iff.2 hdirect

/-- Resolution fails in the listed cases and in no others; of all texts it gives no address exactly
for those that are neither a symbol's name nor a direct address. -/
theorem resolve_outcomes (p : Project) (target : Target) :
    (∀ fault, p.resolve target = .error fault ↔ p.Fails target fault) ∧
      (p.resolve target = .ok none ↔ target = .other ∨ ∃ text, target = .text text ∧
        p.symbol? text = none ∧ ¬ ∃ letter number, DirectAddress (Text.strip text) letter number) :=
  ⟨fun _ => resolve_eq_error_iff, resolve_eq_ok_none_iff⟩

/-- The Kelvin sign has no capital to look up, and the long s is taken for an S. -/
theorem resolve_beyond_letters :
    Project.ofDocument (.object []) = .ok .empty ∧
      Project.empty.resolve (.text "\u212a10") = .error (.letterWithoutRegion '\u212a') ∧
      Project.empty.resolve (.text "\u017f10") = .ok (some ⟨10, 1, none, .byte⟩) :=
  ⟨rfl, rfl, rfl⟩

theorem map_some_eq_ok_some_iff {α : Type} {x : Except Fault α} {a : α} :
    some <$> x = .ok (some a) ↔ x = .ok a := by
  cases x <;> simp [Functor.map, Except.map]

theorem narrow_bit {address : Int} {a : Scalar} {place : Int × Int}
    (hsplit : a.splitByteBit = .ok place) :
    ResolvedAddress.Narrow ⟨address, 1, some place.2, .bit⟩ := by
  obtain ⟨v, -, rfl⟩ := Scalar.splitByteBit_eq_ok_iff.1 hsplit
  refine ⟨Int.one_pos, (by decide : (1 : Int) ≤ 9), ?_⟩
  rintro bit ⟨⟩
  exact Scalar.tenths_sub_floor_bounds v

theorem narrow_of_locate {base unit : Int} {r : ResolvedAddress} (hpos : 0 < unit)
    (hunit : unit ≤ 9) (hlocate : number.locate base unit = .ok r) : r.Narrow := by
  unfold AddressNumber.locate at hlocate
  split at hlocate
  · obtain ⟨place, hplace, hr⟩ := bind_eq_ok_iff.1 hlocate
    obtain rfl := Except.ok.inj hr
    exact narrow_bit hplace
  · obtain ⟨n, -, hr⟩ := bind_eq_ok_iff.1 hlocate
    obtain rfl := Except.ok.inj hr
    exact ⟨hpos, hunit, nofun⟩

theorem narrow_of_resolveSymbol {s : Symbol} {r : ResolvedAddress}
    (hresolve : p.resolveSymbol s = .ok r) : r.Narrow := by
  unfold resolveSymbol at hresolve
  split at hresolve
  · obtain ⟨place, hplace, hr⟩ := bind_eq_ok_iff.1 hresolve
    obtain rfl := Except.ok.inj hr
    exact narrow_bit hplace
  · obtain ⟨byte, -, hr⟩ := bind_eq_ok_iff.1 hresolve
    obtain rfl := Except.ok.inj hr
    have hwidth : ∀ type ∈ ValueType.all, type.width ≤ 9 := by decide
    exact ⟨Int.natCast_pos.2 s.type.width_pos, Int.ofNat_le.2 (hwidth _ s.type.mem_all), nofun⟩

/-- An address that a text resolves to takes one byte to nine, and its bit index is at most ten. -/
theorem narrow_of_resolveText {text : String} {r : ResolvedAddress}
    (hresolve : p.resolveText text = .ok (some r)) : r.Narrow := by
  unfold resolveText at hresolve
  split at hresolve
  · exact narrow_of_resolveSymbol (map_some_eq_ok_some_iff.1 hresolve)
  · by_cases hdirect : ∃ letter number, DirectAddress (Text.strip text) letter number
    · obtain ⟨letter, number, hdirect⟩ := hdirect
      generalize Text.strip text = cs at hdirect hresolve
      cases hdirect with
      | bare h =>
        rw [resolveDirect_bare p h] at hresolve
        exact narrow_of_locate Int.one_pos (by decide) (map_some_eq_ok_some_iff.1 hresolve)
      | @lettered _ letter _ hletter h =>
        cases letter with
        | nameless sign =>
          rw [resolveDirect_nameless p hletter h] at hresolve
          cases hresolve
        | region region =>
          rw [resolveDirect_lettered p hletter h] at hresolve
          have hunit : (0 : Int) < region.unit ∧ (region.unit : Int) ≤ 9 := by
            cases region <;> decide
          exact narrow_of_locate hunit.1 hunit.2 (map_some_eq_ok_some_iff.1 hresolve)
    · rw [resolveDirect_of_not_direct p hdirect] at hresolve
      cases hresolve

/-- Texts are resolved by the symbols and offsets of a project, and not by its networks. -/
theorem resolveText_congr {p p' : Project} (hsymbols : p'.symbols = p.symbols)
    (hoffsets : p'.offsets = p.offsets) (text : String) :
    p'.resolveText text = p.resolveText text := by
  obtain ⟨name, offsets, symbols, networks⟩ := p
  obtain ⟨name', offsets', symbols', networks'⟩ := p'
  obtain rfl : symbols' = symbols := hsymbols
  obtain rfl : offsets' = offsets := hoffsets
  rfl

end Project

end LadderMonitor
