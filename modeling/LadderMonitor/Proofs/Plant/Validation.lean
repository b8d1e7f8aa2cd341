import LadderMonitor.Plant.Project
import LadderMonitor.Proofs.Plant.Layout

namespace LadderMonitor.Project

/-- No name is found twice if none occurs twice and none was there before. -/
theorem firstDuplicate_eq_none_iff {seen names : List String} :
    firstDuplicate seen names = none ↔ names.Nodup ∧ ∀ name ∈ names, name ∉ seen := by
  induction names generalizing seen with
  | nil => simp [firstDuplicate]
  | cons name rest ih =>
    rw [firstDuplicate]
    split
    · rename_i hseen
      simp [hseen]
    · rename_i hnew
      rw [ih, List.nodup_cons, List.forall_mem_cons]
      constructor
      · rintro ⟨hnodup, hrest⟩
        refine ⟨⟨fun hmem => hrest name hmem List.mem_cons_self, hnodup⟩, hnew, ?_⟩
        exact fun other hother hold => hrest other hother (List.mem_cons_of_mem name hold)
      · rintro ⟨⟨hname, hnodup⟩, -, hrest⟩
        refine ⟨hnodup, fun other hother hmem => ?_⟩
        rcases List.mem_cons.1 hmem with rfl | hold
        · exact hname hother
        · exact hrest other hother hold

theorem check_eq_ok_iff {p q : Project} :
    p.check = .ok q ↔
      q = p ∧ p.offsets.firstOverlap = none ∧ (p.symbols.map (·.name)).Nodup := by
  have hnames : firstDuplicate [] (p.symbols.map (·.name)) = none ↔
      (p.symbols.map (·.name)).Nodup := by
    rw [firstDuplicate_eq_none_iff]
    simp
  rw [← hnames]
  unfold check
  cases p.offsets.firstOverlap with
  | some pair => simp [Reading.refuse]
  | none =>
    cases firstDuplicate [] (p.symbols.map (·.name)) with
    | some name => simp [Reading.refuse]
    | none => simp [eq_comm]

/-- The offsets and the symbols of a project are read from its document. -/
theorem offsets_and_symbols_of_parts {fields : Fields} {p : Project}
    (hparts : parts fields = .ok p) :
    Layout.ofDocument (layoutOf fields) = .ok p.offsets ∧
      fields.optional ["symbols"] [] (Document.readList Symbol.ofDocument) = .ok p.symbols := by
  obtain ⟨make₃, networks, hmake₃, -, rfl⟩ := Reading.seq_eq_ok_iff.1 hparts
  obtain ⟨make₂, symbols, hmake₂, hsymbols, rfl⟩ := Reading.seq_eq_ok_iff.1 hmake₃
  obtain ⟨make₁, offsets, hmake₁, hoffsets, rfl⟩ := Reading.seq_eq_ok_iff.1 hmake₂
  obtain ⟨name, -, rfl⟩ := Reading.fmap_eq_ok_iff.1 hmake₁
  exact ⟨Reading.inside_eq_ok_iff.1 hoffsets, hsymbols⟩

/-- The layout of a project is the one that the entries of its document complete to. -/
theorem completes_of_parts {fields : Fields} {p : Project} (hparts : parts fields = .ok p) :
    ∃ document entries, Layout.entries (layoutOf fields) = .ok document ∧
      Layout.readEntries document = .ok entries ∧ p.offsets.Completes entries :=
  Layout.completes_of_ofDocument (offsets_and_symbols_of_parts hparts).1

/-- A project is accepted exactly if its memory is laid out soundly and its symbols can be told
apart.

Given that each field can be read, the layout has every region, as the document gives it or by
default. The project is accepted, just as it was read, if no address belongs to two of these regions
and no two symbols share a name, and only then. Which of two regions is compared with the other does
not matter. -/
theorem accepted_iff_sound {fields : Fields} {p : Project} (hparts : parts fields = .ok p) :
    (∃ document entries, Layout.entries (layoutOf fields) = .ok document ∧
      Layout.readEntries document = .ok entries ∧ p.offsets.Completes entries) ∧
    ((∃ q, ofDocument (.object fields) = .ok q) ↔
      p.offsets.Apart ∧ (p.symbols.map (·.name)).Nodup) ∧
    (∀ q, ofDocument (.object fields) = .ok q → q = p) ∧
    ∀ a b : MemoryRegion, a.overlaps b = b.overlaps a := by
  have hread (q : Project) : ofDocument (.object fields) = .ok q ↔
      q = p ∧ p.offsets.firstOverlap = none ∧ (p.symbols.map (·.name)).Nodup := by
    rw [← check_eq_ok_iff]
    change (parts fields).andThen check = .ok q ↔ _
    rw [hparts]
    rfl
  obtain ⟨document, entries, hdocument, hentries, hcompletes⟩ := completes_of_parts hparts
  have hapart : p.offsets.firstOverlap = none ↔ p.offsets.Apart := by
    rw [RegionTable.firstOverlap_eq_none_iff]
    exact RegionTable.pairwise_iff_apart hcompletes.keys hcompletes.proper
  refine ⟨⟨document, entries, hdocument, hentries, hcompletes⟩, ?_, ?_,
    MemoryRegion.overlaps_comm⟩
  · simp only [hread, exists_eq_left, hapart]
  · exact fun q hq => ((hread q).1 hq).1

/-- A project that moves its inputs into the system region. -/
def crowded : Fields :=
  [("offsets", .object [("Input", .object [("offset", .int 32), ("size", .int 64)])])]

def crowdedParts : Project where
  name := ""
  offsets := [(.input, ⟨32, 64⟩), (.system, ⟨0, 64⟩), (.output, ⟨128, 64⟩), (.marker, ⟨192, 256⟩),
    (.timer, ⟨448, 0⟩), (.counter, ⟨448, 0⟩)]
  symbols := []
  networks := []

theorem crowded_refused :
    parts crowded = .ok crowdedParts ∧ ¬ ∃ q, ofDocument (.object crowded) = .ok q := by
  have hparts : parts crowded = .ok crowdedParts := rfl
  obtain ⟨-, haccepted, -, -⟩ := accepted_iff_sound hparts
  refine ⟨hparts, fun hread => ?_⟩
  obtain ⟨hapart, -⟩ := haccepted.1 hread
  exact hapart .input .system ⟨32, 64⟩ ⟨0, 64⟩ (by decide) rfl rfl 40 (by decide)

end LadderMonitor.Project
