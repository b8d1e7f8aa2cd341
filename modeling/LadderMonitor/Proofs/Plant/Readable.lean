import LadderMonitor.Proofs.Memory.Kind
import LadderMonitor.Proofs.Plant.AddressLanguage
import LadderMonitor.Proofs.Plant.Validation

namespace LadderMonitor

/-- Whether the address of a symbol is not below zero, as far as it is a number. -/
def Symbol.Proper (s : Symbol) : Prop := ∀ v, s.address.view = .finite v → 0 ≤ v

theorem Symbol.nonneg_of_readAddress {d : Document} {address : Scalar} {v : Rat}
    (h : readAddress d = .ok address) (hview : address.view = .finite v) : 0 ≤ v := by
  obtain ⟨x, -, hx⟩ := Reading.andThen_eq_ok_iff.1 h
  split at hx
  · cases hx
  · rename_i hbelow
    obtain rfl := Reading.ok.inj hx
    rw [Scalar.view] at hview
    simpa [Double.isBelowZero, hview] using hbelow

theorem Symbol.proper_of_ofDocument {d : Document} {s : Symbol} (h : ofDocument d = .ok s) :
    s.Proper := by
  cases d with
  | object fields =>
    obtain ⟨make₅, comment, hmake₅, -, rfl⟩ := Reading.seq_eq_ok_iff.1 h
    obtain ⟨make₄, initial, hmake₄, -, rfl⟩ := Reading.seq_eq_ok_iff.1 hmake₅
    obtain ⟨make₃, address, hmake₃, haddress, rfl⟩ := Reading.seq_eq_ok_iff.1 hmake₄
    obtain ⟨make₂, type, hmake₂, -, rfl⟩ := Reading.seq_eq_ok_iff.1 hmake₃
    obtain ⟨make₁, location, hmake₁, -, rfl⟩ := Reading.seq_eq_ok_iff.1 hmake₂
    obtain ⟨name, -, rfl⟩ := Reading.fmap_eq_ok_iff.1 hmake₁
    intro v hview
    obtain rfl | ⟨d, hread⟩ := Fields.eq_absent_or_exists_of_optional haddress
    · exact (Double.View.finite.inj hview).le
    · exact nonneg_of_readAddress hread hview
  | _ => cases h

/-- Whether no region starts and no symbol lies below zero. -/
structure Project.Proper (p : Project) : Prop where
  base : ∀ region, 0 ≤ p.offsets.base region
  symbols : ∀ s ∈ p.symbols, s.Proper

theorem Project.proper_of_ofDocument {d : Document} {p : Project} (h : ofDocument d = .ok p) :
    p.Proper := by
  cases d with
  | object fields =>
    obtain ⟨q, hparts, hcheck⟩ := Reading.andThen_eq_ok_iff.1 h
    obtain ⟨rfl, -⟩ := check_eq_ok_iff.1 hcheck
    constructor
    · intro region
      obtain ⟨_, _, -, -, hcompletes⟩ := completes_of_parts hparts
      obtain ⟨m, hm, hproper, -⟩ := hcompletes.region region
      rw [RegionTable.base, hm]
      exact hproper.1
    · intro s hs
      obtain ⟨-, hsymbols⟩ := offsets_and_symbols_of_parts hparts
      obtain habsent | ⟨d, hread⟩ := Fields.eq_absent_or_exists_of_optional hsymbols
      · rw [habsent] at hs
        cases hs
      · obtain ⟨d, hsymbol⟩ := Document.exists_of_mem_readList hread s hs
        exact Symbol.proper_of_ofDocument hsymbol
  | _ => cases h

/-- The targets of a monitor: any text, and any symbol that is accepted. -/
inductive Target.Accepted : Target → Prop where
  | text (value : String) : Accepted (.text value)
  | symbol {d : Document} {s : Symbol} (h : Symbol.ofDocument d = .ok s) : Accepted (.symbol s)

theorem AddressNumber.nonneg_of_view_byteBit {whole digits : List Char} {v : Rat}
    (hview : (Scalar.real (byteBit whole digits)).view = .finite v) : 0 ≤ v := by
  rw [Scalar.toRat_of_view hview, byteBit, Double.toRat_ofRatio, if_neg Bool.false_ne_true,
    FloatFormat.value]
  positivity

namespace Project

variable {p : Project} {target : Target} {r : ResolvedAddress}

/-- The byte.bit number that the address of a bit is split from: the address of a bit symbol, or the
number of a direct address with a fraction. -/
inductive BitNumber (p : Project) : Target → Scalar → Prop where
  | symbol {s : Symbol} (htype : s.type = .bit) : BitNumber p (.symbol s) s.address
  | named {text : String} {s : Symbol} (hname : p.symbol? text = some s) (htype : s.type = .bit) :
      BitNumber p (.text text) s.address
  | direct {text : String} {letter : Option AddressLetter} {number : AddressNumber}
      {digits : List Char} (hname : p.symbol? text = none)
      (hdirect : DirectAddress (Text.strip text) letter number)
      (hfraction : number.fraction = some digits) :
      BitNumber p (.text text) (.real (AddressNumber.byteBit number.whole digits))

/-- The addresses that accepted targets have: those of bits, and those of whole values. -/
inductive Lies (p : Project) (target : Target) : ResolvedAddress → Prop where
  | bit {address : Int} {a : Scalar} {v : Rat} (hstart : 0 ≤ address)
      (hnumber : p.BitNumber target a) (hview : a.view = .finite v) (hnonneg : 0 ≤ v) :
      Lies p target ⟨address, 1, some (Scalar.tenths (v - v.floor)), .bit⟩
  | whole {address size : Int} {type : ValueType} (hstart : 0 ≤ address) (hsize : 1 ≤ size)
      (hwidth : type.isReal → size = 4 ∨ size = 8) : Lies p target ⟨address, size, none, type⟩

theorem lies_of_resolveSymbol {s : Symbol} (hp : p.Proper) (hs : s.Proper)
    (hnumber : s.type = .bit → p.BitNumber target s.address) (hsymbol : p.resolveSymbol s = .ok r) :
    p.Lies target r := by
  have hbase := hp.base s.location
  have hbyte {v : Rat} (hview : s.address.view = .finite v) :
      0 ≤ p.offsets.base s.location + v.floor :=
    Int.add_nonneg hbase (Int.floor_nonneg.2 (hs v hview))
  rw [resolveSymbol] at hsymbol
  split at hsymbol
  · rename_i htype
    obtain ⟨place, hplace, hr⟩ := bind_eq_ok_iff.1 hsymbol
    obtain ⟨v, hview, rfl⟩ := Scalar.splitByteBit_eq_ok_iff.1 hplace
    obtain rfl := Except.ok.inj hr
    exact .bit (hbyte hview) (hnumber htype) hview (hs v hview)
  · obtain ⟨byte, hfloor, hr⟩ := bind_eq_ok_iff.1 hsymbol
    obtain ⟨v, hview, rfl⟩ := Scalar.floor_eq_ok_iff.1 hfloor
    obtain rfl := Except.ok.inj hr
    refine .whole (hbyte hview) (by exact_mod_cast s.type.width_pos) fun hreal => ?_
    exact_mod_cast ValueType.width_of_isReal hreal

theorem lies_of_locate {number : AddressNumber} {base unit : Int} (hbase : 0 ≤ base)
    (hunit : 1 ≤ unit) (hnumber : ∀ digits, number.fraction = some digits →
      p.BitNumber target (.real (AddressNumber.byteBit number.whole digits)))
    (hlocate : number.locate base unit = .ok r) : p.Lies target r := by
  cases hfraction : number.fraction with
  | none =>
    rw [AddressNumber.locate_of_whole hfraction hlocate]
    refine .whole ?_ hunit nofun
    positivity
  | some digits =>
    rw [AddressNumber.locate_of_fraction hfraction] at hlocate
    obtain ⟨place, hplace, hr⟩ := bind_eq_ok_iff.1 hlocate
    obtain ⟨v, hview, rfl⟩ := Scalar.splitByteBit_eq_ok_iff.1 hplace
    obtain rfl := Except.ok.inj hr
    have hnonneg := AddressNumber.nonneg_of_view_byteBit hview
    have hbyte : 0 ≤ v.floor := Int.floor_nonneg.2 hnonneg
    exact .bit (by positivity) (hnumber digits hfraction) hview hnonneg

theorem lies_of_resolve (hp : p.Proper) (htarget : target.Accepted)
    (hresolve : p.resolve target = .ok (some r)) : p.Lies target r := by
  cases htarget with
  | symbol hread =>
    exact lies_of_resolveSymbol hp (Symbol.proper_of_ofDocument hread) .symbol
      (map_some_eq_ok_some_iff.1 hresolve)
  | text text =>
    cases hname : p.symbol? text with
    | some s =>
      rw [resolve_symbol_of_name hname] at hresolve
      exact lies_of_resolveSymbol hp (hp.symbols s (List.mem_of_find?_eq_some hname)) (.named hname)
        (map_some_eq_ok_some_iff.1 hresolve)
    | none =>
      rw [resolve_direct_of_no_name hname] at hresolve
      by_cases hdirect : ∃ letter number, DirectAddress (Text.strip text) letter number
      · obtain ⟨letter, number, hdirect⟩ := hdirect
        have hnumber (digits : List Char) (hfraction : number.fraction = some digits) :=
          BitNumber.direct hname hdirect hfraction
        generalize Text.strip text = cs at hdirect hresolve
        cases hdirect with
        | bare h =>
          rw [resolveDirect_bare p h] at hresolve
          exact lies_of_locate le_rfl le_rfl hnumber (map_some_eq_ok_some_iff.1 hresolve)
        | @lettered _ letter _ hletter h =>
          cases letter with
          | nameless sign =>
            rw [resolveDirect_nameless p hletter h] at hresolve
            cases hresolve
          | region region =>
            rw [resolveDirect_lettered p hletter h] at hresolve
            have hunit : (1 : Int) ≤ region.unit := by cases region <;> decide
            exact lies_of_locate (hp.base region) hunit hnumber
              (map_some_eq_ok_some_iff.1 hresolve)
      · rw [resolveDirect_of_not_direct p hdirect] at hresolve
        cases hresolve

/-- Which targets of an accepted project can be read.

The address of a target is not below zero and takes at least one byte. A bit index comes with a
single byte; it is the index of one of its eight bits exactly if the byte.bit number it is split
from has a fraction below three quarters, and is at most ten. From every image that contains the
address a value of its type is read, unless the index is none of the eight: then every read is
refused. -/
theorem resolved_readable {document : Document} (hproject : ofDocument document = .ok p)
    (htarget : target.Accepted) (hresolve : p.resolve target = .ok (some r)) :
    0 ≤ r.address ∧ 1 ≤ r.size ∧
    (∀ bit, r.bit = some bit → r.size = 1 ∧ r.type = .bit ∧ 0 ≤ bit ∧ bit ≤ 10 ∧
      ∃ a v, p.BitNumber target a ∧ a.view = .finite v ∧ (bit ≤ 7 ↔ v - v.floor < 3 / 4)) ∧
    ∀ memory : Bytes, r.address + r.size ≤ memory.size →
      ((∀ bit, r.bit = some bit → bit ≤ 7) →
        ∃ value, Codec.read memory r = .ok value ∧ r.type.Holds r.size.toNat value) ∧
      ∀ bit, r.bit = some bit → 7 < bit → Codec.read memory r = .error (.bitOutOfRange bit) := by
  cases lies_of_resolve (proper_of_ofDocument hproject) htarget hresolve with
  | @bit address a v hstart hnumber hview hnonneg =>
    obtain ⟨⟨hlow, hhigh⟩, hlegal⟩ := Scalar.tenths_legal_iff hview hnonneg
    refine ⟨hstart, le_rfl, ?_, fun memory hstop => ⟨fun hindex => ?_, fun bit hbit hbeyond => ?_⟩⟩
    · rintro bit ⟨⟩
      exact ⟨rfl, rfl, hlow, hhigh, a, v, hnumber, hview, hlegal⟩
    · refine Codec.read_holds ⟨hstart, hstop, ?_, nofun⟩ (fun _ _ => rfl) le_rfl
      rintro bit ⟨⟩
      exact ⟨hlow, hindex _ rfl⟩
    · exact Codec.read_of_bit_outside hstart hstop hbit hbeyond
  | whole hstart hsize hwidth =>
    refine ⟨hstart, hsize, nofun, fun memory hstop => ⟨fun _ => ?_, nofun⟩⟩
    exact Codec.read_holds ⟨hstart, hstop, nofun, fun _ => hwidth⟩ nofun hsize

/-- A bit of the marker region in the default layout. -/
theorem marker_bit_readable :
    ofDocument (.object []) = .ok empty ∧ Target.Accepted (.text "M10.5") ∧
      empty.resolve (.text "M10.5") = .ok (some ⟨202, 1, some 5, .bit⟩) ∧
      ∀ memory : Bytes, 203 ≤ memory.size →
        ∃ value, Codec.read memory ⟨202, 1, some 5, .bit⟩ = .ok value ∧
          ValueType.bit.Holds 1 value := by
  have hproject : ofDocument (.object []) = .ok empty := rfl
  have hresolve : empty.resolve (.text "M10.5") = .ok (some ⟨202, 1, some 5, .bit⟩) := by
    decide +kernel
  obtain ⟨-, -, -, hread⟩ := resolved_readable hproject (.text _) hresolve
  refine ⟨hproject, .text _, hresolve, fun memory hmemory => ?_⟩
  have hstop : (202 : Int) + 1 ≤ memory.size := by omega
  refine (hread memory hstop).1 ?_
  rintro bit ⟨⟩
  decide

/-- A fraction that rounds up to a whole byte is taken for the eleventh bit of the byte below, and
eight tenths are taken for the ninth bit of theirs. No read of them succeeds. -/
theorem eleventh_bit_unreadable :
    ofDocument (.object []) = .ok empty ∧
      empty.resolve (.text "10.99") = .ok (some ⟨10, 1, some 10, .bit⟩) ∧
      empty.resolve (.text "0.8") = .ok (some ⟨0, 1, some 8, .bit⟩) ∧
      Codec.read (Bytes.zeros 11) ⟨10, 1, some 10, .bit⟩ = .error (.bitOutOfRange 10) ∧
      Codec.read (Bytes.zeros 11) ⟨0, 1, some 8, .bit⟩ = .error (.bitOutOfRange 8) := by
  refine ⟨rfl, by decide +kernel, by decide +kernel, ?_, ?_⟩
  · exact Codec.read_of_bit_outside (by decide) (by decide) rfl (by decide)
  · exact Codec.read_of_bit_outside (by decide) (by decide) rfl (by decide)

end Project

end LadderMonitor
