import LadderMonitor.Monitor.Display
import LadderMonitor.Proofs.Monitor.Evaluation
import LadderMonitor.Proofs.Plant.Resolution
import Mathlib.Data.List.ReduceOption

namespace LadderMonitor

namespace ByteRange

variable {r range : ByteRange} {ranges : List ByteRange}

theorem mem_insertSorted : range ∈ insertSorted r ranges ↔ range = r ∨ range ∈ ranges := by
  induction ranges with
  | nil => simp [insertSorted]
  | cons first rest ih =>
    rw [insertSorted]
    split
    · rename_i heq
      simp [heq]
    · split
      · simp
      · rw [List.mem_cons, ih, List.mem_cons, or_left_comm]

theorem mem_sortDistinct : range ∈ sortDistinct ranges ↔ range ∈ ranges := by
  induction ranges with
  | nil => rfl
  | cons first rest ih =>
    change range ∈ insertSorted first (sortDistinct rest) ↔ _
    rw [mem_insertSorted, ih, List.mem_cons]

end ByteRange

/-- The ranges at which the symbols of blocks lie. -/
def Block.Lie (p : Project) (blocks : List Block) (range : ByteRange) : Prop :=
  ∃ b ∈ blocks, b.symbol ≠ "" ∧
    ∃ r, p.resolveText b.symbol = .ok (some r) ∧ range = ⟨r.address, r.size⟩

/-- The ranges at which the symbols of a network lie. -/
def Workspace.Lie (w : Workspace) (net : Nat) : ByteRange → Prop :=
  Block.Lie w.project (((w.network? net).map (·.blocks)).getD [])

namespace Block

variable {p : Project} {b : Block} {blocks : List Block} {range : ByteRange}

theorem range?_eq_ok_some_iff : b.range? p = .ok (some range) ↔ b.symbol ≠ "" ∧
    ∃ r, p.resolveText b.symbol = .ok (some r) ∧ range = ⟨r.address, r.size⟩ := by
  rw [range?]
  by_cases hempty : b.symbol = ""
  · simp [hempty]
  · have hsymbol : ¬ b.symbol.isEmpty = true := by simpa using hempty
    rw [if_neg hsymbol]
    cases p.resolveText b.symbol with
    | error fault => simp [Functor.map, Except.map]
    | ok resolved => cases resolved <;> simp [Functor.map, Except.map, hempty, eq_comm]

section Gathered

variable {α β : Type} {f : α → Except Fault β} {items : List α} {results : List β}

theorem mapM_cons_eq_ok {a : α} (hmap : (a :: items).mapM f = .ok results) :
    ∃ b others, f a = .ok b ∧ items.mapM f = .ok others ∧ results = b :: others := by
  rw [List.mapM_cons] at hmap
  cases hfirst : f a with
  | error fault => simp [hfirst, bind, Except.bind] at hmap
  | ok b =>
    cases hrest : items.mapM f with
    | error fault => simp [hfirst, hrest, bind, Except.bind] at hmap
    | ok others =>
      simp only [hfirst, hrest, bind, Except.bind, pure, Except.pure, Except.ok.injEq] at hmap
      exact ⟨b, others, rfl, rfl, hmap.symm⟩

theorem mem_of_mapM_eq_ok (hmap : items.mapM f = .ok results) {b : β} :
    b ∈ results ↔ ∃ a ∈ items, f a = .ok b := by
  induction items generalizing results with
  | nil =>
    obtain rfl := Except.ok.inj hmap
    simp
  | cons a rest ih =>
    obtain ⟨first, others, hfirst, hrest, rfl⟩ := mapM_cons_eq_ok hmap
    simp [ih hrest, hfirst, eq_comm]

theorem exists_of_mapM_eq_ok (hmap : items.mapM f = .ok results) {a : α} (ha : a ∈ items) :
    ∃ b, f a = .ok b := by
  induction items generalizing results with
  | nil => cases ha
  | cons first rest ih =>
    obtain ⟨b, others, hfirst, hrest, -⟩ := mapM_cons_eq_ok hmap
    rcases List.mem_cons.1 ha with rfl | hlater
    · exact ⟨b, hfirst⟩
    · exact ih hrest hlater

end Gathered

theorem mem_ranges {wanted : List ByteRange} (hranges : Block.ranges p blocks = .ok wanted) :
    range ∈ wanted ↔ Block.Lie p blocks range := by
  unfold Block.ranges at hranges
  cases hmap : blocks.mapM (range? p) with
  | error fault => simp [hmap, Functor.map, Except.map] at hranges
  | ok found =>
    simp only [hmap, Functor.map, Except.map, Except.ok.injEq] at hranges
    subst hranges
    rw [ByteRange.mem_sortDistinct, List.reduceOption_mem_iff, mem_of_mapM_eq_ok hmap, Lie]
    simp only [range?_eq_ok_some_iff]

theorem size_pos_of_lie (h : Block.Lie p blocks range) : 0 < range.size := by
  obtain ⟨b, -, -, r, hresolve, rfl⟩ := h
  exact (Project.narrow_of_resolveText hresolve).pos

theorem lie_congr {p p' : Project} (hsymbols : p'.symbols = p.symbols)
    (hoffsets : p'.offsets = p.offsets) {blocks blocks' : List Block}
    (hblocks : blocks'.map (·.symbol) = blocks.map (·.symbol)) :
    Block.Lie p' blocks' = Block.Lie p blocks := by
  have htexts (p : Project) (blocks : List Block) (range : ByteRange) :
      Block.Lie p blocks range ↔ ∃ text ∈ blocks.map (·.symbol), text ≠ "" ∧
        ∃ r, p.resolveText text = .ok (some r) ∧ range = ⟨r.address, r.size⟩ := by
    simp [Block.Lie]
  funext range
  rw [eq_iff_iff, htexts, htexts, hblocks]
  simp only [Project.resolveText_congr hsymbols hoffsets]

end Block

namespace Workspace

variable {w : Workspace} {net other : Nat}

theorem layout_modify (w : Workspace) (net : Nat) (change : Network → Network) :
    (w.modify net change).project.symbols = w.project.symbols ∧
      (w.modify net change).project.offsets = w.project.offsets := by
  unfold modify
  simp only
  split <;> exact ⟨rfl, rfl⟩

theorem symbols_modify {change : Network → Network}
    (hsymbols : ∀ n, (change n).blocks.map (·.symbol) = n.blocks.map (·.symbol)) :
    ((((w.modify net change).network? other).map (·.blocks)).getD []).map (·.symbol) =
      (((w.network? other).map (·.blocks)).getD []).map (·.symbol) := by
  rw [network?_modify]
  cases w.network? other with
  | none => rfl
  | some n =>
    simp only [Option.map_some, Option.getD_some]
    split
    · exact hsymbols n
    · rfl

theorem symbols_invalidate (n : Network) :
    n.invalidate.blocks.map (·.symbol) = n.blocks.map (·.symbol) := by
  simp only [Network.invalidate, List.map_map]
  rfl

/-- What a network shows does not matter for where its symbols lie. -/
theorem lie_invalidate : (w.modify net Network.invalidate).Lie other = w.Lie other :=
  Block.lie_congr (w.layout_modify net _).1 (w.layout_modify net _).2
    (symbols_modify symbols_invalidate)

end Workspace

end LadderMonitor
