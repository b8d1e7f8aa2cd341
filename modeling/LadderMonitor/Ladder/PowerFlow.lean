import LadderMonitor.Memory.Codec
import LadderMonitor.Plant.Resolution

namespace LadderMonitor

namespace Block

def stateOrFresh (b : Block) : BlockState := b.state.getD {}

/-- Where the symbol of a block lies: as remembered, or as it resolves now. -/
def resolution (p : Project) (b : Block) : Except Fault (Option ResolvedAddress) :=
  match b.stateOrFresh.resolved with
  | some r => .ok (some r)
  | none => if b.symbol.isEmpty then .ok none else p.resolveText b.symbol

/-- The truth of the value at an address. A value that is refused counts as false, as long as the
refusal can be reported. -/
def levelAt (memory : Bytes) (r : ResolvedAddress) : Except Fault Bool :=
  match Codec.readTruth memory r with
  | .ok level => .ok level
  | .error fault => if fault.Reported then .ok false else .error fault

/-- Whether a block is active: its symbol resolves, and the level there differs from its
inversion. -/
def activeAt (memory : Bytes) (b : Block) : Option ResolvedAddress → Except Fault Bool
  | none => .ok false
  | some r => return (← levelAt memory r) != b.inverted

/-- Resets a block for an evaluation. When its symbol cannot be resolved or its value fails, the
block keeps the state that it showed, apart from the resolution. -/
def reset (p : Project) (memory : Bytes) (b : Block) : Block × Option Fault :=
  match b.resolution p with
  | .error fault => ({ b with state := some b.stateOrFresh }, some fault)
  | .ok resolved =>
    match b.activeAt memory resolved with
    | .error fault => ({ b with state := some { b.stateOrFresh with resolved } }, some fault)
    | .ok active => ({ b with state := some { active, powered := b.onRail, resolved } }, none)

/-- Whether power that arrives at a block goes on behind it. A contact passes it on when it is
active and reacts to plain levels, a coil always; edges and latches belong to the program on the
device, and are not shown. -/
def fires (b : Block) : Bool :=
  b.isCoil || (b.stateOrFresh.active && b.trigger == .normal)

def forget (b : Block) : Block :=
  { b with state := b.state.map fun s => { s with resolved := none } }

/-- The level of a block's symbol, inversion aside, and the block with the resolution that was
used. -/
def level (p : Project) (memory : Bytes) (b : Block) : Block × Except Fault Bool :=
  match b.resolution p with
  | .error fault => ({ b with state := some b.stateOrFresh }, .error fault)
  | .ok resolved =>
    ({ b with state := some { b.stateOrFresh with resolved } },
      match resolved with
      | none => .ok false
      | some r => levelAt memory r)

end Block

/-- What spreads through a network: the blocks that power arrived at, each time it did, the blocks
that passed it on, and the wires that it went along; blocks and wires by position, the latest first.
-/
structure Flow where
  arrivals : List Nat := []
  fired : List Nat := []
  followed : List Nat := []
deriving DecidableEq, Repr

namespace Network

/-- The position of the block that an id stands for in the wiring: the last one with the id. -/
def holder? (n : Network) (id : String) : Option Nat :=
  (n.blocks.zipIdx.filter fun e => e.1.id == id).getLast?.map (·.2)

/-- The wires that leave an id for an existing block: their positions, and the blocks they lead
to. -/
def outgoing (n : Network) (id : String) : List (Nat × Nat) :=
  n.wires.zipIdx.filterMap fun e =>
    if e.1.source = id && (n.holder? id).isSome then (n.holder? e.1.target).map fun i => (e.2, i)
    else none

def rail (n : Network) : List Nat :=
  (n.blocks.zipIdx.filter fun e => e.1.onRail).map (·.2)

/-- Lets power arrive at pending blocks. A block that has not passed power on before, and now does,
puts the blocks behind it in front of those that are still pending. -/
def spread (n : Network) (unfired : List Nat) (flow : Flow) : List Nat → Flow
  | [] => flow
  | i :: pending =>
    let flow := { flow with arrivals := i :: flow.arrivals }
    match n.blocks[i]? with
    | none => spread n unfired flow pending
    | some b =>
      if i ∈ unfired ∧ b.fires then
        let out := n.outgoing b.id
        spread n (unfired.erase i)
          { flow with
            fired := i :: flow.fired
            followed := (out.map (·.1)).reverse ++ flow.followed }
          (out.map (·.2) ++ pending)
      else spread n unfired flow pending
termination_by pending => (unfired.length, pending.length)
decreasing_by
  · exact Prod.Lex.right _ (by simp)
  · rename_i hfires
    have hmem : i ∈ unfired := hfires.1
    have hlength := List.length_erase_of_mem hmem
    have hpos := List.length_pos_of_mem hmem
    exact Prod.Lex.left _ _ (by omega)
  · exact Prod.Lex.right _ (by simp)

/-- How power flows through a network whose blocks have been reset. -/
def flow (n : Network) : Flow := n.spread (List.range n.blocks.length) {} n.rail

/-- A network whose states show a flow. -/
def display (n : Network) (flow : Flow) : Network :=
  { n with
    blocks := n.blocks.zipIdx.map fun e =>
      { e.1 with state := some { e.1.stateOrFresh with
        powered := e.2 ∈ flow.arrivals
        evaluated := e.2 ∈ flow.fired
        terminatedInput := e.1.onRail
        terminatedOutput := (n.outgoing e.1.id).isEmpty } }
    wires := n.wires.zipIdx.map fun e =>
      let along := decide (e.2 ∈ flow.followed)
      { e.1 with state := some { powered := along, evaluated := along } } }

/-- Resets blocks in order, up to the first that fails. -/
def resetBlocks (p : Project) (memory : Bytes) : List Block → List Block × Option Fault
  | [] => ([], none)
  | b :: rest =>
    match b.reset p memory with
    | (b, some fault) => (b :: rest, some fault)
    | (b, none) =>
      let (rest, fault) := resetBlocks p memory rest
      (b :: rest, fault)

def resetWires (n : Network) : Network :=
  { n with wires := n.wires.map fun w => { w with state := some {} } }

/-- Evaluates a network against a memory image: wires and blocks are reset, and power spreads afresh
from the contacts on the rail. When a block fails, the wires and the blocks before it are left
reset. -/
def evaluate (p : Project) (memory : Bytes) (n : Network) : Network × Option Fault :=
  let (blocks, fault) := resetBlocks p memory n.blocks
  let fresh := { n.resetWires with blocks }
  match fault with
  | some fault => (fresh, some fault)
  | none => (fresh.display fresh.flow, none)

/-- Drops all remembered resolutions, as is due when symbols, addresses or blocks have changed. -/
def invalidate (n : Network) : Network := { n with blocks := n.blocks.map Block.forget }

end Network

end LadderMonitor
