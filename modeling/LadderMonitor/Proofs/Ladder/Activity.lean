import LadderMonitor.Proofs.Ladder.Display
import LadderMonitor.Proofs.Memory.Reading

namespace LadderMonitor

namespace Block

variable {p : Project} {memory : Bytes} {b b' : Block} {resolved : Option ResolvedAddress}
  {r : ResolvedAddress} {active level : Bool}

/-- A level is the truth of a legible value, or stands for a value that is not legible. -/
theorem legible_or_of_levelAt (hlevel : levelAt memory r = .ok level) :
    (Codec.Legible memory r ∧ Codec.readTruth memory r = .ok level) ∨
      (¬ Codec.Legible memory r ∧ level = false) := by
  rw [levelAt] at hlevel
  by_cases hlegible : Codec.Legible memory r
  · obtain ⟨level', hread⟩ | ⟨hnone, -⟩ := Codec.readTruth_of_legible hlegible
    · rw [hread] at hlevel
      exact .inl ⟨hlegible, hread.trans hlevel⟩
    · have hunreported : ¬ Fault.noBytes.Reported := Fault.not_reported rfl
      simp only [hnone, if_neg hunreported] at hlevel
      cases hlevel
  · obtain ⟨fault, hfault, -⟩ := Codec.readTruth_of_not_legible hlegible
    simp only [hfault] at hlevel
    split at hlevel
    · exact .inr ⟨hlegible, (Except.ok.inj hlevel).symm⟩
    · cases hlevel

/-- The level of a block whose symbol lies inside the memory is the truth of the value there. -/
theorem level_of_inside (hresolution : b.resolution p = .ok (some r)) (hsize : 0 < r.size)
    (hbrief : r.Brief) (hstart : 0 ≤ r.address) (hstop : r.address + r.size ≤ memory.size) :
    (b.level p memory).2 = .ok ((Codec.read memory r).toOption.elim false Scalar.truth) := by
  rw [level, hresolution]
  change levelAt memory r = _
  rw [levelAt, Codec.readTruth]
  obtain ⟨value, hread⟩ | ⟨fault, hread, -, hreported⟩ :=
      Codec.read_of_inside hsize hstart hstop
  · rw [hread]
    rfl
  · simp [hread, Except.map, Except.toOption, hreported hbrief]

theorem activeAt_eq_ok_iff : b.activeAt memory (some r) = .ok active ↔
    levelAt memory r = .ok (active != b.inverted) := by
  rw [activeAt]
  cases levelAt memory r with
  | error fault => simp [bind, Except.bind]
  | ok level =>
    simp only [bind, Except.bind, pure, Except.pure, Except.ok.injEq]
    cases level <;> cases active <;> cases b.inverted <;> decide

/-- What makes a block active: its symbol lies somewhere, and the value there differs from the
inversion, or cannot be read and the block is inverted. -/
def Lit (memory : Bytes) (b : Block) (resolved : Option ResolvedAddress) : Prop :=
  ∃ r, resolved = some r ∧
    ((Codec.Legible memory r ∧ Codec.readTruth memory r = .ok (!b.inverted)) ∨
      (¬ Codec.Legible memory r ∧ b.inverted))

/-- What the state of a block tells after an evaluation that succeeds. -/
structure Tells (p : Project) (memory : Bytes) (b : Block) (s : BlockState) : Prop where
  resolved : b.resolution p = .ok s.resolved
  active : s.active ↔ b.Lit memory s.resolved
  read : ∀ r, s.resolved = some r → Codec.Legible memory r →
    ∃ level, Codec.readTruth memory r = .ok level

theorem lit_iff_of_activeAt (hactive : b.activeAt memory resolved = .ok active) :
    active ↔ b.Lit memory resolved := by
  cases resolved with
  | none =>
    obtain rfl := Except.ok.inj hactive
    simp [Lit]
  | some r =>
    have hlevel := legible_or_of_levelAt (activeAt_eq_ok_iff.1 hactive)
    obtain ⟨hlegible, hread⟩ | ⟨hnot, hfalse⟩ := hlevel
    · have htrue : active = true ↔ (active != b.inverted) = !b.inverted := by
        cases active <;> cases b.inverted <;> decide
      simp [Lit, hlegible, hread, htrue]
    · have htrue : active = b.inverted := by simpa using hfalse
      simp [Lit, hnot, htrue]

theorem readTruth_of_activeAt (hactive : b.activeAt memory (some r) = .ok active)
    (hlegible : Codec.Legible memory r) : ∃ level, Codec.readTruth memory r = .ok level := by
  have hlevel := legible_or_of_levelAt (activeAt_eq_ok_iff.1 hactive)
  obtain ⟨-, hread⟩ | ⟨hnot, -⟩ := hlevel
  · exact ⟨_, hread⟩
  · exact absurd hlegible hnot

theorem of_reset (hreset : b.reset p memory = (b', none)) :
    ∃ resolved active, b.resolution p = .ok resolved ∧ b.activeAt memory resolved = .ok active ∧
      b' = { b with state := some { active, powered := b.onRail, resolved } } := by
  unfold reset at hreset
  cases hresolution : b.resolution p with
  | error fault =>
    simp only [hresolution] at hreset
    cases hreset
  | ok resolved =>
    cases hactive : b.activeAt memory resolved with
    | error fault =>
      simp only [hresolution, hactive] at hreset
      cases hreset
    | ok active =>
      simp only [hresolution, hactive] at hreset
      obtain rfl := (Prod.mk.inj hreset).1
      exact ⟨resolved, active, rfl, hactive, rfl⟩

end Block

namespace Network

variable {p : Project} {memory : Bytes} {n shown : Network}

theorem reset_of_resetBlocks {blocks fresh : List Block}
    (hreset : resetBlocks p memory blocks = (fresh, none)) {i : Nat} {b' : Block}
    (hfresh : fresh[i]? = some b') :
    ∃ b, blocks[i]? = some b ∧ b.reset p memory = (b', none) := by
  induction blocks generalizing fresh i with
  | nil =>
    obtain rfl := (Prod.mk.inj hreset).1
    cases hfresh
  | cons b rest ih =>
    rw [resetBlocks] at hreset
    split at hreset
    · cases hreset
    · rename_i first hfirst
      rcases hrest : resetBlocks p memory rest with ⟨others, fault⟩
      rw [hrest, Prod.mk.injEq] at hreset
      obtain ⟨rfl, rfl⟩ := hreset
      cases i with
      | zero =>
        obtain rfl := Option.some.inj hfresh
        exact ⟨b, rfl, hfirst⟩
      | succ i => exact ih hrest hfresh

/-- After an evaluation that succeeds, the blocks that are active are those whose symbol lies
somewhere, as remembered or as it resolves now, and whose value there differs from the inversion;
and the inverted ones whose value cannot be read. -/
theorem active_iff_of_evaluate (heval : n.evaluate p memory = (shown, none)) {i : Nat} {b' : Block}
    (hshown : shown.blocks[i]? = some b') :
    ∃ b s, n.blocks[i]? = some b ∧ b'.bare = b.bare ∧ b'.state = some s ∧ b.Tells p memory s := by
  unfold evaluate at heval
  rcases hreset : resetBlocks p memory n.blocks with ⟨blocks, fault⟩
  rw [hreset] at heval
  cases fault with
  | some fault => cases heval
  | none =>
    obtain rfl := (Prod.mk.inj heval).1
    rw [getElem?_blocks_display] at hshown
    obtain ⟨fresh, hfresh, rfl⟩ := Option.map_eq_some_iff.1 hshown
    obtain ⟨b, hblock, hb⟩ := reset_of_resetBlocks hreset hfresh
    obtain ⟨resolved, active, hresolution, hactive, rfl⟩ := Block.of_reset hb
    refine ⟨b, _, hblock, rfl, rfl, hresolution, Block.lit_iff_of_activeAt hactive, ?_⟩
    rintro r rfl
    exact Block.readTruth_of_activeAt hactive

/-- Three contacts on one byte: one beyond its end, one beyond its end and inverted, and one
inverted whose symbol does not resolve. -/
def unread : Network where
  name := "unread"
  comment := ""
  blocks := [⟨"a", 0, 0, .contact, false, .normal, "9.0", none⟩,
    ⟨"b", 1, 0, .contact, true, .normal, "9.0", none⟩,
    ⟨"c", 2, 0, .contact, true, .normal, "nowhere", none⟩]
  wires := []

theorem active_iff_of_evaluate_unread :
    ∃ shown, unread.evaluate .empty #[0] = (shown, none) ∧
      ∀ (i : Nat) (b' : Block), shown.blocks[i]? = some b' →
        ∃ b s, unread.blocks[i]? = some b ∧ b'.bare = b.bare ∧ b'.state = some s ∧
          b.Tells .empty #[0] s := by
  have hreturns : (unread.evaluate .empty #[0]).2 = none := by decide +kernel
  rcases heval : unread.evaluate .empty #[0] with ⟨shown, fault⟩
  rw [heval] at hreturns
  obtain rfl : fault = none := hreturns
  exact ⟨shown, rfl, fun _ _ hshown => active_iff_of_evaluate heval hshown⟩

/-- The inverted block beyond the end of memory is shown as active, and there is no value to be read
for it. -/
theorem active_without_value :
    (unread.evaluate .empty #[0]).2 = none ∧ ((unread.evaluate .empty #[0]).1.blocks.map fun b =>
        b.state.map fun s => (s.active, s.resolved)) =
      [some (false, some ⟨9, 1, some 0, .bit⟩), some (true, some ⟨9, 1, some 0, .bit⟩),
        some (false, none)] ∧
      Codec.readTruth #[0] ⟨9, 1, some 0, .bit⟩ = .error (.outsideMemory 1 9 1) :=
  ⟨by decide +kernel, by decide +kernel, rfl⟩

end Network

end LadderMonitor
