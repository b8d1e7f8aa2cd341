import LadderMonitor.Proofs.Ladder.Reachability

namespace LadderMonitor

namespace Block

/-- A block without its state. -/
def bare (b : Block) : Block := { b with state := none }

theorem bare_reset (p : Project) (memory : Bytes) (b : Block) :
    (b.reset p memory).1.bare = b.bare := by
  unfold reset
  split
  · rfl
  · split <;> rfl

end Block

namespace Network

/-- A network without the states of its blocks and wires. -/
def bare (n : Network) : Network :=
  { n with
    blocks := n.blocks.map Block.bare
    wires := n.wires.map fun w => { w with state := none } }

/-- The blocks and wires of a network show where power flows, by the states that they show
themselves. -/
structure ShowsPower (n : Network) : Prop where
  block : ∀ i b, n.blocks[i]? = some b → ∃ s, b.state = some s ∧
    (s.powered ↔ n.Reached i) ∧
    (s.evaluated ↔ n.Reached i ∧ (b.isCoil ∨ s.active ∧ b.trigger = .normal)) ∧
    (s.terminatedInput ↔ b.isContact ∧ b.x = 0) ∧
    (s.terminatedOutput ↔ ¬ ∃ w ∈ n.wires, w.source = b.id ∧ n.Bears w.target)
  wire : ∀ w ∈ n.wires, ∃ s, w.state = some s ∧ s.powered = s.evaluated ∧
    (s.powered ↔ (n.Bears w.source ∧ n.Bears w.target) ∧
      ∃ b ∈ n.blocks, b.id = w.source ∧ ∃ t, b.state = some t ∧ t.evaluated)

/-- A block as a flow shows it. -/
def shownBlock (n : Network) (flow : Flow) (i : Nat) (b : Block) : Block :=
  { b with state := some { b.stateOrFresh with
      powered := i ∈ flow.arrivals
      evaluated := i ∈ flow.fired
      terminatedInput := b.onRail
      terminatedOutput := (n.outgoing b.id).isEmpty } }

/-- A wire as a flow shows it. -/
def shownWire (flow : Flow) (k : Nat) (w : Wire) : Wire :=
  { w with state := some ⟨k ∈ flow.followed, k ∈ flow.followed⟩ }

variable {n : Network} {flow : Flow}

theorem getElem?_blocks_display (n : Network) (flow : Flow) (i : Nat) :
    (n.display flow).blocks[i]? = (n.blocks[i]?).map (n.shownBlock flow i) := by
  simp only [display, List.getElem?_map, List.getElem?_zipIdx, Option.map_map, Nat.zero_add]
  rfl

theorem getElem?_wires_display (n : Network) (flow : Flow) (k : Nat) :
    (n.display flow).wires[k]? = (n.wires[k]?).map (shownWire flow k) := by
  simp only [display, List.getElem?_map, List.getElem?_zipIdx, Option.map_map, Nat.zero_add]
  rfl

theorem bare_display (n : Network) (flow : Flow) : (n.display flow).bare = n.bare := by
  have hblocks : (n.display flow).blocks.map Block.bare = n.blocks.map Block.bare := by
    apply List.ext_getElem?
    intro i
    simp only [List.getElem?_map, getElem?_blocks_display, Option.map_map]
    rfl
  have hwires : (n.display flow).wires.map (fun w => { w with state := none }) =
      n.wires.map fun w => { w with state := none } := by
    apply List.ext_getElem?
    intro k
    simp only [List.getElem?_map, getElem?_wires_display, Option.map_map]
    rfl
  unfold bare
  rw [hblocks, hwires]
  rfl

theorem map_conduct_display (n : Network) (flow : Flow) :
    (n.display flow).blocks.map Block.conduct = n.blocks.map Block.conduct := by
  apply List.ext_getElem?
  intro i
  simp only [List.getElem?_map, getElem?_blocks_display, Option.map_map]
  rfl

theorem map_ends_display (n : Network) (flow : Flow) :
    (n.display flow).wires.map Wire.ends = n.wires.map Wire.ends := by
  apply List.ext_getElem?
  intro k
  simp only [List.getElem?_map, getElem?_wires_display, Option.map_map]
  rfl

theorem holder?_display (n : Network) (flow : Flow) : (n.display flow).holder? = n.holder? :=
  holder?_congr (ids_congr (map_conduct_display n flow))

theorem bears_display {id : String} : (n.display flow).Bears id ↔ n.Bears id := by
  rw [← holder?_isSome_iff, ← holder?_isSome_iff, holder?_display]

/-- The states that a flow is shown by do not change where power flows. -/
theorem reached_display {i : Nat} : (n.display flow).Reached i ↔ n.Reached i :=
  reached_congr (map_conduct_display n flow) (map_ends_display n flow)

theorem exists_outgoing_display {id : String} :
    (∃ w ∈ (n.display flow).wires, w.source = id ∧ (n.display flow).Bears w.target) ↔
      ∃ w ∈ n.wires, w.source = id ∧ n.Bears w.target := by
  have hends (m : Network) : (∃ w ∈ m.wires, w.source = id ∧ n.Bears w.target) ↔
      ∃ e ∈ m.wires.map Wire.ends, e.1 = id ∧ n.Bears e.2 := by
    simp [Wire.ends]
  simp only [bears_display]
  rw [hends, hends, map_ends_display]

/-- Some block of an id is shown as passing power on exactly if one of them does. -/
theorem exists_evaluated_display {id : String} :
    (∃ b ∈ (n.display flow).blocks, b.id = id ∧ ∃ t, b.state = some t ∧ t.evaluated) ↔
      ∃ i ∈ flow.fired, n.ids[i]? = some id := by
  constructor
  · rintro ⟨shown, hmem, hid, t, hstate, heval⟩
    obtain ⟨i, hi⟩ := List.getElem?_of_mem hmem
    rw [getElem?_blocks_display] at hi
    obtain ⟨b, hblock, rfl⟩ := Option.map_eq_some_iff.1 hi
    obtain rfl := Option.some.inj hstate
    exact ⟨i, of_decide_eq_true heval, getElem?_ids_eq_some_iff.2 ⟨b, hblock, hid⟩⟩
  · rintro ⟨i, hfired, hid⟩
    obtain ⟨b, hblock, hb⟩ := getElem?_ids_eq_some_iff.1 hid
    have hshown : (n.display flow).blocks[i]? = some (n.shownBlock flow i b) := by
      rw [getElem?_blocks_display, hblock, Option.map_some]
    exact ⟨_, List.mem_of_getElem? hshown, hb, _, rfl, decide_eq_true hfired⟩

theorem exists_joins_iff {i k : Nat} {w : Wire} (hwire : n.wires[k]? = some w) :
    (∃ j, n.Joins i k j) ↔ n.ids[i]? = some w.source ∧ n.Bears w.target := by
  constructor
  · rintro ⟨j, b, hblock, hout⟩
    obtain ⟨w', hwire', hsource, -, htarget⟩ := mem_outgoing.1 hout
    obtain rfl : w' = w := Option.some.inj (hwire'.symm.trans hwire)
    exact ⟨hsource ▸ ids_of_block hblock, holder?_isSome_iff.1 (by simp [htarget])⟩
  · rintro ⟨hid, htarget⟩
    obtain ⟨b, hblock, hb⟩ := getElem?_ids_eq_some_iff.1 hid
    obtain ⟨j, hj⟩ := Option.isSome_iff_exists.1 (holder?_isSome_iff.2 htarget)
    have hexists := holder?_isSome_of_ids (ids_of_block hblock)
    exact ⟨j, b, hblock, mem_outgoing.2 ⟨w, hwire, hb.symm, hexists, hj⟩⟩

/-- A flow that reaches what power reaches is shown as it is. -/
theorem showsPower_display (n : Network) : (n.display n.flow).ShowsPower where
  block := by
    intro i shown hshown
    rw [getElem?_blocks_display] at hshown
    obtain ⟨b, hblock, rfl⟩ := Option.map_eq_some_iff.1 hshown
    refine ⟨_, rfl, ?_, ?_, ?_, ?_⟩
    · rw [reached_display]
      exact decide_eq_true_iff.trans mem_arrivals_flow
    · have hfires : n.FiresAt i ↔ b.isCoil ∨ b.stateOrFresh.active ∧ b.trigger = .normal := by
        simp [FiresAt, hblock, Block.fires]
      rw [reached_display]
      exact (decide_eq_true_iff.trans mem_fired_flow).trans (and_congr_right' hfires)
    · simp [shownBlock, Block.onRail, Block.isContact]
    · rw [exists_outgoing_display]
      exact outgoing_isEmpty_iff (ids_of_block hblock)
  wire := by
    intro shown hmem
    obtain ⟨k, hk⟩ := List.getElem?_of_mem hmem
    rw [getElem?_wires_display] at hk
    obtain ⟨w, hwire, rfl⟩ := Option.map_eq_some_iff.1 hk
    refine ⟨_, rfl, rfl, ?_⟩
    rw [bears_display, bears_display, exists_evaluated_display]
    refine decide_eq_true_iff.trans (mem_followed_flow.trans ?_)
    simp only [← mem_fired_flow, exists_joins_iff hwire]
    constructor
    · rintro ⟨i, hfired, hid, htarget⟩
      obtain ⟨b, hblock, hb⟩ := getElem?_ids_eq_some_iff.1 hid
      exact ⟨⟨⟨b, List.mem_of_getElem? hblock, hb⟩, htarget⟩, i, hfired, hid⟩
    · rintro ⟨⟨-, htarget⟩, i, hfired, hid⟩
      exact ⟨i, hfired, hid, htarget⟩

theorem bare_invalidate (n : Network) : n.invalidate.bare = n.bare := by
  simp only [invalidate, bare, List.map_map]
  rfl

theorem map_bare_resetBlocks (p : Project) (memory : Bytes) (blocks : List Block) :
    (resetBlocks p memory blocks).1.map Block.bare = blocks.map Block.bare := by
  induction blocks with
  | nil => rfl
  | cons b rest ih =>
    have hreset := b.bare_reset p memory
    rw [resetBlocks]
    split
    · rename_i b' fault heq
      rw [heq] at hreset
      rw [List.map_cons, List.map_cons, hreset]
    · rename_i b' heq
      rw [heq] at hreset
      rw [List.map_cons, List.map_cons, hreset, ih]

/-- An evaluation changes nothing but states, whether it succeeds or not. -/
theorem bare_evaluate (p : Project) (memory : Bytes) (n : Network) :
    (n.evaluate p memory).1.bare = n.bare := by
  have hblocks := map_bare_resetBlocks p memory n.blocks
  have hfresh :
      { n.resetWires with blocks := (resetBlocks p memory n.blocks).1 }.bare = n.bare := by
    simp only [bare, resetWires, List.map_map, hblocks]
    rfl
  unfold evaluate
  rcases hreset : resetBlocks p memory n.blocks with ⟨blocks, fault⟩
  rw [hreset] at hfresh
  cases fault with
  | some fault => exact hfresh
  | none => exact (bare_display _ _).trans hfresh

/-- An evaluation that succeeds has reset all blocks, and shows the flow of the network that this
left. -/
theorem exists_display_of_evaluate {p : Project} {memory : Bytes} {n shown : Network}
    (heval : n.evaluate p memory = (shown, none)) :
    ∃ fresh : Network, shown = fresh.display fresh.flow ∧
      resetBlocks p memory n.blocks = (fresh.blocks, none) ∧
      fresh = { n.resetWires with blocks := fresh.blocks } := by
  unfold evaluate at heval
  rcases hreset : resetBlocks p memory n.blocks with ⟨blocks, fault⟩
  rw [hreset] at heval
  cases fault with
  | some fault => cases heval
  | none =>
    obtain rfl := (Prod.mk.inj heval).1
    exact ⟨{ n.resetWires with blocks }, rfl, rfl, rfl⟩

/-- All blocks have been reset when power begins to flow, so nothing that they showed before is
taken for power. -/
theorem showsPower_of_evaluate {p : Project} {memory : Bytes} {n shown : Network}
    (heval : n.evaluate p memory = (shown, none)) : shown.ShowsPower := by
  obtain ⟨fresh, rfl, -⟩ := exists_display_of_evaluate heval
  exact showsPower_display fresh

/-- An evaluation that succeeds changes nothing but states, and what it shows is where power flows:
the least set of blocks that holds the contacts on the rail and, with every block that passes power
on, the blocks its wires lead to. The states from before may be any, and so may be the order of
blocks and wires; there may be cycles, wires to nowhere and repeated ids. -/
theorem evaluate_shows_reachability {p : Project} {memory : Bytes} {n shown : Network}
    (heval : n.evaluate p memory = (shown, none)) : shown.bare = n.bare ∧ shown.ShowsPower := by
  have hbare := n.bare_evaluate p memory
  rw [heval] at hbare
  exact ⟨hbare, showsPower_of_evaluate heval⟩

/-- A contact on the rail feeds a cycle through a repeated id and a coil that is wired to itself;
one wire leads nowhere, and one block still shows an earlier evaluation. -/
def cyclic : Network where
  name := "cycle"
  comment := ""
  blocks := [⟨"a", 0, 0, .contact, false, .normal, "0.0", none⟩,
    ⟨"b", 1, 0, .contact, true, .normal, "0.1", some { evaluated := true }⟩,
    ⟨"b", 2, 0, .contact, false, .rising, "9.0", none⟩,
    ⟨"c", 3, 0, .coilSet, false, .normal, "", none⟩]
  wires := [⟨"a", "c", none⟩, ⟨"a", "b", none⟩, ⟨"b", "c", some ⟨true, false⟩⟩, ⟨"c", "a", none⟩,
    ⟨"c", "c", none⟩, ⟨"c", "d", none⟩]

theorem evaluate_shows_reachability_cyclic :
    ∃ shown, cyclic.evaluate .empty #[1] = (shown, none) ∧ shown.bare = cyclic.bare ∧
      shown.ShowsPower := by
  have hreturns : (cyclic.evaluate .empty #[1]).2 = none := by decide +kernel
  rcases heval : cyclic.evaluate .empty #[1] with ⟨shown, fault⟩
  rw [heval] at hreturns
  obtain rfl : fault = none := hreturns
  exact ⟨shown, rfl, evaluate_shows_reachability heval⟩

end Network

end LadderMonitor
