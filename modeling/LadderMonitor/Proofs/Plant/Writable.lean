import LadderMonitor.Proofs.Memory.WriteFailure
import LadderMonitor.Proofs.Plant.Readable

namespace LadderMonitor

namespace Project

variable {p : Project} {target : Target} {r : ResolvedAddress}

theorem Lies.sized (h : p.Lies target r) : Codec.Sized r := by
  cases h with
  | @bit address a v _ _ hview hnonneg =>
    obtain ⟨⟨hlow, hhigh⟩, -⟩ := Scalar.tenths_legal_iff hview hnonneg
    refine ⟨le_rfl, nofun, ?_⟩
    rintro bit ⟨⟩
    refine ⟨rfl, fun hlong => ?_⟩
    have hdigits := hlong.lt_abs
    rw [abs_of_nonneg hlow] at hdigits
    omega
  | whole _ hsize hwidth => exact ⟨hsize, hwidth, nofun⟩

/-- Writes to the targets of an accepted project fail as the monitor reports, with few exceptions.

Encoding a value fails otherwise exactly if the value is no number and is to be an integer, if it is
too large for the floating-point numbers of the address, or if it does not fit and is too long to be
named. A write fails otherwise exactly if a value in the image cannot be encoded for one of these
reasons, or if the address lies outside the image and is too long to be named. -/
theorem unreported_write_failures {document : Document} (hproject : ofDocument document = .ok p)
    (htarget : target.Accepted) (hresolve : p.resolve target = .ok (some r)) :
    (∀ value fault, (Codec.encode r value = .error fault ∧ ¬ fault.Reported) ↔
      Codec.Escapes r value fault) ∧
    ∀ memory value fault, (Codec.write memory r value = .error fault ∧ ¬ fault.Reported) ↔
      Codec.WriteEscapes memory r value fault := by
  have hsized := (lies_of_resolve (proper_of_ofDocument hproject) htarget hresolve).sized
  exact ⟨fun _ _ => hsized.escapes_iff, fun _ _ _ => hsized.writeEscapes_iff⟩

/-- An infinity fits into no byte, and that is reported. -/
theorem infinity_write_reported :
    ofDocument (.object []) = .ok empty ∧ Target.Accepted (.text "M10") ∧
      empty.resolve (.text "M10") = .ok (some ⟨202, 1, none, .byte⟩) ∧
      ∀ memory fault, Codec.write memory ⟨202, 1, none, .byte⟩ (.real (.infinity false)) =
        .error fault → fault.Reported := by
  have hproject : ofDocument (.object []) = .ok empty := rfl
  have hresolve : empty.resolve (.text "M10") = .ok (some ⟨202, 1, none, .byte⟩) := by
    decide +kernel
  obtain ⟨-, hwrite⟩ := unreported_write_failures hproject (.text _) hresolve
  refine ⟨hproject, .text _, hresolve, fun memory fault hfails => ?_⟩
  by_contra hunreported
  cases (hwrite memory _ fault).1 ⟨hfails, hunreported⟩ with
  | value _ _ _ hvalue =>
    cases hvalue with
    | notANumber _ hview => cases hview
    | beyondSingles hreal => cases hreal
  | place _ _ hlong =>
    obtain hlong | hlong := hlong
    · exact absurd hlong.lt_abs (by decide)
    · exact absurd hlong.lt_abs (by decide)

/-- A level, as a floating-point number of four bytes. -/
def level : Symbol := ⟨"level", .marker, .real, .int 0, .int 0, ""⟩

/-- Three writes fail without a report: of what is no number as a byte, and as a level of a number
that is too large for four bytes and of an integer that is too large for any. -/
theorem unreported_writes :
    ofDocument (.object []) = .ok empty ∧ Target.Accepted (.symbol level) ∧
      empty.resolve (.text "M10") = .ok (some ⟨202, 1, none, .byte⟩) ∧
      empty.resolve (.symbol level) = .ok (some ⟨192, 4, none, .real⟩) ∧
      Codec.write (Bytes.zeros 203) ⟨202, 1, none, .byte⟩ (.real .notANumber) =
        .error .integerOfNaN ∧
      Codec.write (Bytes.zeros 203) ⟨192, 4, none, .real⟩ (.real (.ofRatio false (2 ^ 128) 1)) =
        .error .singleTooLarge ∧
      Codec.write (Bytes.zeros 203) ⟨192, 4, none, .real⟩ (.int (2 ^ 1024)) =
        .error .integerTooLarge ∧
      ∀ fault ∈ [Fault.integerOfNaN, .singleTooLarge, .integerTooLarge], ¬ fault.Reported := by
  have hread : Symbol.ofDocument (.object [("name", .text "level"), ("location", .text "marker"),
    ("type", .text "real")]) = .ok level := rfl
  refine ⟨rfl, .symbol hread, by decide +kernel, by decide +kernel, by decide +kernel,
    by decide +kernel, by decide +kernel, ?_⟩
  simp only [List.forall_mem_cons, List.not_mem_nil, false_implies, implies_true, and_true]
  exact ⟨nofun, nofun, nofun⟩

end Project

end LadderMonitor
