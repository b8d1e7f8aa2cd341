import LadderMonitor.Proofs.Ladder.Display
import LadderMonitor.Proofs.Plant.Resolution

namespace LadderMonitor

namespace Block

variable {p : Project} {memory : Bytes} {b : Block} {r : ResolvedAddress}

/-- Whether the resolution that a block remembers, if any, is what its symbol resolves to now. -/
def Current (p : Project) (b : Block) : Prop :=
  ∀ r, b.stateOrFresh.resolved = some r → b.symbol ≠ "" ∧ p.resolveText b.symbol = .ok (some r)

instance (p : Project) (b : Block) : Decidable (b.Current p) :=
  inferInstanceAs (Decidable (∀ r ∈ b.stateOrFresh.resolved,
    b.symbol ≠ "" ∧ p.resolveText b.symbol = .ok (some r)))

theorem current_bare (p : Project) (b : Block) : b.bare.Current p := by
  intro r hr
  cases hr

theorem current_forget (p : Project) (b : Block) : b.forget.Current p := by
  intro r hr
  unfold forget stateOrFresh at hr
  cases hstate : b.state <;> rw [hstate] at hr <;> cases hr

/-- What a block is resolved to is what its symbol resolves to. -/
theorem Current.of_resolution (h : b.Current p) (hresolution : b.resolution p = .ok (some r)) :
    b.symbol ≠ "" ∧ p.resolveText b.symbol = .ok (some r) := by
  rw [resolution] at hresolution
  split at hresolution
  · rename_i hremembered
    obtain rfl := Option.some.inj (Except.ok.inj hresolution)
    exact h _ hremembered
  · split at hresolution
    · cases hresolution
    · rename_i hsymbol
      exact ⟨by simpa using hsymbol, hresolution⟩

theorem Current.reset (h : b.Current p) : (b.reset p memory).1.Current p := by
  unfold Block.reset
  cases hresolution : b.resolution p with
  | error fault => exact h
  | ok resolved =>
    have hresolved (r : ResolvedAddress) (hr : resolved = some r) :
        b.symbol ≠ "" ∧ p.resolveText b.symbol = .ok (some r) :=
      h.of_resolution (hr ▸ hresolution)
    simp only
    split <;> exact hresolved

end Block

namespace Network

variable {p : Project} {memory : Bytes} {n : Network} {blocks : List Block}

/-- Whether all resolutions that the blocks of a network remember are what their symbols resolve to
now. -/
def Current (p : Project) (n : Network) : Prop := ∀ b ∈ n.blocks, b.Current p

instance (p : Project) (n : Network) : Decidable (n.Current p) :=
  inferInstanceAs (Decidable (∀ b ∈ n.blocks, b.Current p))

theorem current_invalidate (p : Project) (n : Network) : n.invalidate.Current p := by
  intro b hb
  obtain ⟨before, -, rfl⟩ := List.mem_map.1 hb
  exact before.current_forget p

/-- What is current depends on the symbols and offsets of a project only. -/
theorem Current.congr {p' : Project} (h : n.Current p) (hsymbols : p'.symbols = p.symbols)
    (hoffsets : p'.offsets = p.offsets) : n.Current p' := by
  intro b hb r hr
  rw [Project.resolveText_congr hsymbols hoffsets]
  exact h b hb r hr

theorem current_resetBlocks (h : ∀ b ∈ blocks, b.Current p) :
    ∀ b ∈ (resetBlocks p memory blocks).1, b.Current p := by
  induction blocks with
  | nil => simp [resetBlocks]
  | cons b rest ih =>
    obtain ⟨hfirst, hrest⟩ := List.forall_mem_cons.1 h
    have hreset : (b.reset p memory).1.Current p := hfirst.reset
    rw [resetBlocks]
    split
    · rename_i heq
      rw [heq] at hreset
      exact List.forall_mem_cons.2 ⟨hreset, hrest⟩
    · rename_i heq
      rw [heq] at hreset
      exact List.forall_mem_cons.2 ⟨hreset, ih hrest⟩

/-- To show where power flows does not change what blocks remember. -/
theorem Current.display (h : n.Current p) (flow : Flow) : (n.display flow).Current p := by
  intro b hb
  obtain ⟨i, hi⟩ := List.getElem?_of_mem hb
  rw [getElem?_blocks_display] at hi
  obtain ⟨before, hbefore, rfl⟩ := Option.map_eq_some_iff.1 hi
  exact h before (List.mem_of_getElem? hbefore)

/-- An evaluation remembers what the symbols resolve to, whether it returns or not. -/
theorem Current.evaluate (h : n.Current p) : (n.evaluate p memory).1.Current p := by
  have hreset : ∀ b ∈ (resetBlocks p memory n.blocks).1, b.Current p := current_resetBlocks h
  unfold Network.evaluate
  rcases hblocks : resetBlocks p memory n.blocks with ⟨blocks, fault⟩
  rw [hblocks] at hreset
  cases fault with
  | some fault => exact hreset
  | none => exact Current.display (n := { n.resetWires with blocks }) hreset _

/-- A network differs in what it shows and remembers only, and remembers what its symbols resolve to
if it did so. -/
structure Redrawn (p : Project) (n n' : Network) : Prop where
  bare : n'.bare = n.bare
  current : n.Current p → n'.Current p

theorem redrawn_invalidate (p : Project) (n : Network) : n.Redrawn p n.invalidate :=
  ⟨n.bare_invalidate, fun _ => n.current_invalidate p⟩

theorem redrawn_evaluate (p : Project) (memory : Bytes) (n : Network) :
    n.Redrawn p (n.evaluate p memory).1 :=
  ⟨n.bare_evaluate p memory, Current.evaluate⟩

end Network

end LadderMonitor
