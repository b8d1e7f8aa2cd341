import LadderMonitor.Proofs.Ladder.Activity
import LadderMonitor.Proofs.Ladder.Remembered
import LadderMonitor.Proofs.Plant.FarAddress

namespace LadderMonitor

namespace Block

variable {p : Project} {memory : Bytes} {b : Block} {blocks : List Block}
  {resolved : Option ResolvedAddress} {r : ResolvedAddress} {fault : Fault}

/-- Whether the symbol of one of the blocks cannot be resolved, for a reason. -/
def Baffle (p : Project) (blocks : List Block) (fault : Fault) : Prop :=
  ∃ b ∈ blocks, b.symbol ≠ "" ∧ p.resolveText b.symbol = .error fault

theorem not_baffle (h : ∀ b ∈ blocks, (p.resolveText b.symbol).isOk) (fault : Fault) :
    ¬ Baffle p blocks fault := by
  rintro ⟨b, hb, -, hresolve⟩
  have hok := h b hb
  rw [hresolve] at hok
  cases hok

/-- Whether a block cannot be reset, for a reason: it remembers no location and its symbol cannot be
resolved, or it remembers one that a byte is needed from and that has none, or its value is refused
for a reason that names an integer too long to be written out. -/
inductive Jams (p : Project) (memory : Bytes) (b : Block) : Fault → Prop where
  | unresolved {fault : Fault} (forgot : b.stateOrFresh.resolved = none) (symbol : b.symbol ≠ "")
      (fails : p.resolveText b.symbol = .error fault) : Jams p memory b fault
  | empty {r : ResolvedAddress} (remembers : b.stateOrFresh.resolved = some r) (size : r.size ≤ 0)
      (fails : Codec.readTruth memory r = .error .noBytes) : Jams p memory b .noBytes
  | unworded {r : ResolvedAddress} {fault : Fault} (located : b.resolution p = .ok (some r))
      (fails : Codec.readTruth memory r = .error fault) (access : fault.isAccess)
      (wordless : ¬ fault.isWordable) : Jams p memory b fault

theorem resolution_eq_error_iff : b.resolution p = .error fault ↔
    b.stateOrFresh.resolved = none ∧ b.symbol ≠ "" ∧ p.resolveText b.symbol = .error fault := by
  rw [resolution]
  cases b.stateOrFresh.resolved with
  | some r => simp
  | none =>
    by_cases hsymbol : b.symbol = ""
    · simp [hsymbol]
    · simp [hsymbol]

theorem levelAt_eq_error_iff : levelAt memory r = .error fault ↔
    Codec.readTruth memory r = .error fault ∧ ¬ fault.Reported := by
  rw [levelAt]
  cases Codec.readTruth memory r with
  | ok level => simp
  | error other =>
    by_cases hreported : other.Reported
    · simp only [if_pos hreported, reduceCtorEq, Except.error.injEq, false_iff, not_and, not_not]
      rintro rfl
      exact hreported
    · simp only [if_neg hreported, Except.error.injEq, iff_self_and]
      rintro rfl
      exact hreported

theorem activeAt_eq_error_iff : b.activeAt memory resolved = .error fault ↔
    ∃ r, resolved = some r ∧ Codec.readTruth memory r = .error fault ∧ ¬ fault.Reported := by
  cases resolved with
  | none => simp [activeAt]
  | some r =>
    simp only [Option.some.injEq, exists_eq_left', ← levelAt_eq_error_iff, activeAt]
    cases levelAt memory r <;> simp [bind, Except.bind, pure, Except.pure]

/-- A location that a symbol resolves to has bytes, so only one that is remembered has none. -/
theorem remembered_of_empty (hresolution : b.resolution p = .ok (some r)) (hsize : r.size ≤ 0) :
    b.stateOrFresh.resolved = some r := by
  rw [resolution] at hresolution
  split at hresolution
  · rename_i hremembered
    rw [hremembered, Except.ok.inj hresolution]
  · split at hresolution
    · cases hresolution
    · have hpos := (Project.narrow_of_resolveText hresolution).pos
      omega

/-- A block cannot be reset exactly for the reasons for which it jams. -/
theorem reset_fault_iff : (b.reset p memory).2 = some fault ↔ b.Jams p memory fault := by
  constructor
  · intro h
    rw [reset] at h
    split at h
    · rename_i other hresolution
      obtain rfl := Option.some.inj h
      obtain ⟨hforgot, hsymbol, hfails⟩ := resolution_eq_error_iff.1 hresolution
      exact .unresolved hforgot hsymbol hfails
    · rename_i resolved hresolution
      split at h
      · rename_i other hactive
        obtain rfl := Option.some.inj h
        obtain ⟨r, rfl, hfails, hunreported⟩ := activeAt_eq_error_iff.1 hactive
        obtain ⟨haccess, -⟩ | ⟨rfl, hsize⟩ := Codec.readTruth_fault hfails
        · exact .unworded hresolution hfails haccess fun hwords => hunreported ⟨haccess, hwords⟩
        · exact .empty (remembered_of_empty hresolution hsize) hsize hfails
      · cases h
  · intro h
    have hfault (r : ResolvedAddress) (hresolution : b.resolution p = .ok (some r))
        (hfails : Codec.readTruth memory r = .error fault) (hunreported : ¬ fault.Reported) :
        (b.reset p memory).2 = some fault := by
      have hactive : b.activeAt memory (some r) = .error fault :=
        activeAt_eq_error_iff.2 ⟨r, rfl, hfails, hunreported⟩
      simp only [reset, hresolution, hactive]
    cases h with
    | unresolved hforgot hsymbol hfails =>
      rw [reset, resolution_eq_error_iff.2 ⟨hforgot, hsymbol, hfails⟩]
    | @empty r hremembers _ hfails =>
      have hresolution : b.resolution p = .ok (some r) := by rw [resolution, hremembers]
      exact hfault r hresolution hfails (Fault.not_reported rfl)
    | @unworded r _ hresolution hfails _ hwordless =>
      exact hfault r hresolution hfails fun hreported => hwordless hreported.wordable

theorem reset_returns_iff : (b.reset p memory).2 = none ↔ ∀ fault, ¬ b.Jams p memory fault := by
  simp only [← reset_fault_iff, Option.eq_none_iff_forall_ne_some, ne_eq]

/-- Whether the place of a block, as remembered or as its symbol resolves, takes some bytes and can
be written out. -/
def Placed (p : Project) (b : Block) : Prop := ∀ r, b.resolution p = .ok (some r) → r.Plain

instance (p : Project) (b : Block) : Decidable (b.Placed p) :=
  decidable_of_iff (∀ r ∈ (b.resolution p).toOption.join, r.Plain) forall_mem_toOption_join

/-- A block that lies at a plain place, or at none, jams only because its symbol cannot be resolved.
-/
theorem Jams.unresolved_of_placed (h : b.Jams p memory fault) (hplaced : b.Placed p) :
    b.symbol ≠ "" ∧ p.resolveText b.symbol = .error fault := by
  cases h with
  | unresolved _ hsymbol hfails => exact ⟨hsymbol, hfails⟩
  | @empty r hremembers hsize _ =>
    have hpos := (hplaced r (by rw [resolution, hremembers])).pos
    omega
  | @unworded r _ hresolution hfails _ hwordless =>
    have hplain := hplaced r hresolution
    obtain ⟨-, hreported⟩ | ⟨-, hsize⟩ := Codec.readTruth_fault hfails
    · exact absurd (hreported hplain.toBrief hplain.address).wordable hwordless
    · exact absurd hsize (not_le.2 hplain.pos)

/-- A block at an address that is too long to be written out jams, unless memory reaches that far.
-/
theorem jams_of_isLong (hlocated : b.resolution p = .ok (some r)) (hsize : 0 ≤ r.size)
    (hlong : IsLong r.address) (hmemory : ¬ IsLong memory.size) :
    b.Jams p memory (.outsideMemory r.size r.address memory.size) := by
  have houtside : ¬ (0 ≤ r.address ∧ r.address + r.size ≤ memory.size) := by
    rintro ⟨hstart, hstop⟩
    refine hmemory (hlong.trans ?_)
    rw [abs_of_nonneg hstart, Nat.abs_cast]
    omega
  refine .unworded hlocated ?_ rfl fun hwords => ?_
  · rw [Codec.readTruth, Codec.read, Bytes.window_of_outside houtside]
    rfl
  · exact Fault.reported_outsideMemory_iff.1 ⟨rfl, hwords⟩ (.inr hlong)

/-- A block whose symbol lies too far off jams, although the symbol resolves. -/
theorem jams_of_farMarker (hforgot : b.stateOrFresh.resolved = none)
    (hsymbol : b.symbol = Project.farMarker)
    (hname : ∀ s ∈ p.symbols, s.name ≠ Project.farMarker) (hbase : 0 < p.offsets.base .marker)
    (hmemory : ¬ IsLong memory.size) :
    (p.resolveText b.symbol).isOk ∧ ∃ fault, b.Jams p memory fault := by
  obtain ⟨r, hresolve, hsize, hlong⟩ := Project.resolveText_farMarker hname hbase
  have hlocated : b.resolution p = .ok (some r) := by
    have hsome : ¬ Project.farMarker.isEmpty = true := by
      simpa using Project.farMarker_ne_empty
    rw [resolution, hforgot, hsymbol]
    simp only [if_neg hsome, hresolve]
  refine ⟨by rw [hsymbol, hresolve]; rfl, _, jams_of_isLong hlocated ?_ hlong hmemory⟩
  rw [hsize]
  exact Int.one_nonneg

/-- A block that remembers nothing but what its symbol resolves to is not empty. -/
theorem Jams.unresolved_or_unworded (h : b.Jams p memory fault) (hcurrent : b.Current p) :
    (b.symbol ≠ "" ∧ p.resolveText b.symbol = .error fault) ∨ ¬ fault.isWordable := by
  cases h with
  | unresolved _ hsymbol hfails => exact .inl ⟨hsymbol, hfails⟩
  | @empty r hremembers hsize _ =>
    obtain ⟨-, hresolve⟩ := hcurrent r hremembers
    have hpos := (Project.narrow_of_resolveText hresolve).pos
    omega
  | unworded _ _ _ hwordless => exact .inr hwordless

/-- Whether the symbol of a block resolves to an address that can be written out, or to none. -/
def Nameable (p : Project) (b : Block) : Prop :=
  ∀ r, p.resolveText b.symbol = .ok (some r) → ¬ IsLong r.address

instance (p : Project) (b : Block) : Decidable (b.Nameable p) :=
  decidable_of_iff (∀ r ∈ (p.resolveText b.symbol).toOption.join, ¬ IsLong r.address)
    forall_mem_toOption_join

theorem Nameable.placed (h : b.Nameable p) (hcurrent : b.Current p) : b.Placed p := by
  intro r hresolution
  obtain ⟨-, hresolve⟩ := hcurrent.of_resolution hresolution
  have hnarrow := Project.narrow_of_resolveText hresolve
  exact { hnarrow.brief with pos := hnarrow.pos, address := h r hresolve }

end Block

namespace Network

variable {p : Project} {memory : Bytes} {n : Network} {blocks : List Block} {fault : Fault}

theorem resetBlocks_returns_iff : (resetBlocks p memory blocks).2 = none ↔
    ∀ b ∈ blocks, ∀ fault, ¬ b.Jams p memory fault := by
  induction blocks with
  | nil => simp [resetBlocks]
  | cons b rest ih =>
    rw [resetBlocks, List.forall_mem_cons, ← Block.reset_returns_iff]
    rcases b.reset p memory with ⟨b', fault⟩
    cases fault with
    | some fault => simp
    | none => simpa using ih

/-- Blocks are reset in order, up to the first that jams; those behind it stay as they are. -/
theorem resetBlocks_fault (h : (resetBlocks p memory blocks).2 = some fault) :
    ∃ before b after, blocks = before ++ b :: after ∧
      (∀ b' ∈ before, ∀ fault, ¬ b'.Jams p memory fault) ∧ b.Jams p memory fault ∧
      (resetBlocks p memory blocks).1 =
        before.map (fun b' => (b'.reset p memory).1) ++ (b.reset p memory).1 :: after := by
  induction blocks with
  | nil => cases h
  | cons b rest ih =>
    rw [resetBlocks] at h ⊢
    rcases hreset : b.reset p memory with ⟨b', other⟩
    cases other with
    | some other =>
      rw [hreset] at h
      obtain rfl := Option.some.inj h
      have hjams : b.Jams p memory other := Block.reset_fault_iff.1 (by rw [hreset])
      exact ⟨[], b, rest, rfl, by simp, hjams, by simp [hreset]⟩
    | none =>
      rw [hreset] at h
      obtain ⟨before, first, after, rfl, hbefore, hjams, hrest⟩ := ih h
      have hfree : ∀ fault, ¬ b.Jams p memory fault := Block.reset_returns_iff.1 (by rw [hreset])
      refine ⟨b :: before, first, after, rfl, List.forall_mem_cons.2 ⟨hfree, hbefore⟩, hjams, ?_⟩
      simp [hreset, hrest]

theorem resetBlocks_of_jams {b : Block} (hjams : b.Jams p memory fault) (rest : List Block) :
    resetBlocks p memory (b :: rest) = ((b.reset p memory).1 :: rest, some fault) := by
  have hreset : b.reset p memory = ((b.reset p memory).1, some fault) :=
    Prod.ext rfl (Block.reset_fault_iff.2 hjams)
  rw [resetBlocks, hreset]

theorem snd_evaluate (p : Project) (memory : Bytes) (n : Network) :
    (n.evaluate p memory).2 = (resetBlocks p memory n.blocks).2 := by
  unfold evaluate
  rcases resetBlocks p memory n.blocks with ⟨blocks, fault⟩
  cases fault <;> rfl

/-- An evaluation returns exactly if no block jams. -/
theorem evaluate_returns_iff : (n.evaluate p memory).2 = none ↔
    ∀ b ∈ n.blocks, ∀ fault, ¬ b.Jams p memory fault := by
  rw [snd_evaluate, resetBlocks_returns_iff]

/-- An evaluation that fails ends at the first block that jams, with the wires reset, the blocks
before it reset, and those behind it as they were. -/
theorem evaluate_halfway (h : (n.evaluate p memory).2 = some fault) :
    ∃ before b after, n.blocks = before ++ b :: after ∧
      (∀ b' ∈ before, ∀ fault, ¬ b'.Jams p memory fault) ∧ b.Jams p memory fault ∧
      (n.evaluate p memory).1 = { n.resetWires with
        blocks := before.map (fun b' => (b'.reset p memory).1) ++
          (b.reset p memory).1 :: after } := by
  rw [snd_evaluate] at h
  obtain ⟨before, b, after, hsplit, hbefore, hjams, hblocks⟩ := resetBlocks_fault h
  refine ⟨before, b, after, hsplit, hbefore, hjams, ?_⟩
  rw [← hblocks, evaluate]
  rcases hreset : resetBlocks p memory n.blocks with ⟨blocks, other⟩
  rw [hreset] at h
  obtain rfl : other = some fault := h
  rfl

/-- Where the blocks remember nothing but what their symbols resolve to, an evaluation fails because
a symbol cannot be resolved, or because a value is refused for a reason that has no words. -/
theorem Current.evaluate_fault (hcurrent : n.Current p)
    (h : (n.evaluate p memory).2 = some fault) :
    Block.Baffle p n.blocks fault ∨ ¬ fault.isWordable := by
  obtain ⟨before, b, after, hsplit, -, hjams, -⟩ := evaluate_halfway h
  have hb : b ∈ n.blocks := by simp [hsplit]
  exact (hjams.unresolved_or_unworded (hcurrent b hb)).imp_left fun hbaffles => ⟨b, hb, hbaffles⟩

end Network

end LadderMonitor
