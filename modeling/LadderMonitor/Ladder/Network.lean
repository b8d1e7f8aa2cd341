import LadderMonitor.Plant.Address

namespace LadderMonitor

/-- What a block does: a contact passes power on, a coil takes it. -/
inductive BlockKind where
  | contact | coil | coilSet | coilReset
deriving DecidableEq, Repr

namespace BlockKind

def all : List BlockKind := [contact, coil, coilSet, coilReset]

def name : BlockKind → String
  | contact => "contact" | coil => "coil" | coilSet => "coil_set" | coilReset => "coil_rset"

def isCoil : BlockKind → Bool
  | contact => false
  | _ => true

end BlockKind

/-- On which change of its value a block acts. -/
inductive Trigger where
  | normal | rising | falling | change
deriving DecidableEq, Repr

namespace Trigger

def all : List Trigger := [normal, rising, falling, change]

def name : Trigger → String
  | normal => "normal" | rising => "rising" | falling => "falling" | change => "change"

end Trigger

structure BlockState where
  active : Bool := false
  powered : Bool := false
  evaluated : Bool := false
  terminatedInput : Bool := false
  terminatedOutput : Bool := false
  resolved : Option ResolvedAddress := none
deriving DecidableEq, Repr

structure WireState where
  powered : Bool := false
  evaluated : Bool := false
deriving DecidableEq, Repr

structure Block where
  id : String
  x : Int
  y : Int
  kind : BlockKind
  inverted : Bool
  trigger : Trigger
  symbol : String
  state : Option BlockState
deriving DecidableEq, Repr

namespace Block

def isCoil (b : Block) : Bool := b.kind.isCoil

def isContact (b : Block) : Bool := b.kind == .contact

/-- Whether the block hangs directly on the power rail: a contact in the first column. -/
def onRail (b : Block) : Bool := b.isContact && b.x == 0

end Block

/-- A wire from the output of one block to the input of another. -/
structure Wire where
  source : String
  target : String
  state : Option WireState
deriving DecidableEq, Repr

/-- Blocks and wires that are evaluated together. -/
structure Network where
  name : String
  comment : String
  blocks : List Block
  wires : List Wire
deriving DecidableEq, Repr

namespace Network

def block? (n : Network) (id : String) : Option Block := n.blocks.find? (·.id == id)

end Network

namespace BlockState

def ofFields (fields : Fields) : Reading BlockState :=
  mk <$> fields.optional ["active"] false Document.readTruth
    <*> fields.optional ["powered"] false Document.readTruth
    <*> fields.optional ["evaluated"] false Document.readTruth
    <*> fields.optional ["terminated_input"] false Document.readTruth
    <*> fields.optional ["terminated_output"] false Document.readTruth
    <*> fields.optional ["resolved"] none (Document.readOptional ResolvedAddress.ofDocument)

def ofDocument : Document → Reading BlockState := Document.readRecord "BlockState" ofFields

end BlockState

namespace WireState

def ofFields (fields : Fields) : Reading WireState :=
  mk <$> fields.optional ["powered"] false Document.readTruth
    <*> fields.optional ["evaluated"] false Document.readTruth

def ofDocument : Document → Reading WireState := Document.readRecord "ConnectionState" ofFields

end WireState

namespace Block

def ofFields (fields : Fields) : Reading Block :=
  mk <$> fields.required ["id"] Document.readText
    <*> fields.optional ["x"] 0 Document.readInteger
    <*> fields.optional ["y"] 0 Document.readInteger
    <*> fields.optional ["type", "kind"] .contact (Document.readNamed BlockKind.all BlockKind.name)
    <*> fields.optional ["inverted"] false Document.readTruth
    <*> fields.optional ["trigger"] .normal (Document.readNamed Trigger.all Trigger.name)
    <*> fields.optional ["symbol"] "" Document.readText
    <*> fields.optional ["state"] none (Document.readOptional BlockState.ofDocument)

def ofDocument : Document → Reading Block := Document.readRecord "LadderBlock" ofFields

end Block

namespace Wire

/-- An endpoint may be written as an object with the id of its block. -/
def endpoint : Document → Document
  | .object entries => (List.lookup "id" entries).getD .null
  | d => d

def ofFields (fields : Fields) : Reading Wire :=
  mk <$> fields.required ["from", "source"] (fun d => Document.readText (endpoint d))
    <*> fields.required ["to", "target"] (fun d => Document.readText (endpoint d))
    <*> fields.optional ["state"] none (Document.readOptional WireState.ofDocument)

def ofDocument : Document → Reading Wire := Document.readRecord "Connection" ofFields

end Wire

namespace Network

/-- The elements of a value: those of a list, the keys of an object, the characters of a text. -/
def elements : Document → Except Fault (List Document)
  | .list items => .ok items
  | .object entries => .ok (entries.map fun e => .text e.1)
  | .text s => .ok (s.toList.map fun c => .text (String.singleton c))
  | d => .error (.notIterable d.kind)

def elementsOrNone : Option Document → Except Fault (List Document)
  | none => .ok []
  | some d => if d.truth then elements d else .ok []

def wireDocument (source target : Document) : Document :=
  .object [("from", Wire.endpoint source), ("to", Wire.endpoint target)]

/-- Spells out grouped wiring: one wire for each pair of a source and a destination, sources
outermost. The destinations are looked at once for each source. Every other entry stays. -/
def ungroup (entry : Document) : Except Fault (List Document) :=
  match entry with
  | .object fields =>
    if (List.lookup "sources" fields).isSome || (List.lookup "destinations" fields).isSome then do
      let sources ← elementsOrNone (List.lookup "sources" fields)
      let groups ← sources.mapM fun source => do
        let targets ← elementsOrNone (List.lookup "destinations" fields)
        return targets.map (wireDocument source)
      return groups.flatten
    else .ok [entry]
  | _ => .ok [entry]

/-- The wires of a network document with grouped wiring spelled out. -/
def spelledOut (wires : Document) : Except Fault Document :=
  if wires.truth then do
    let entries ← elements wires
    let groups ← entries.mapM ungroup
    return .list groups.flatten
  else .ok wires

def ofFields (fields : Fields) : Reading Network :=
  let wires := (List.lookup "connections" fields).map spelledOut
  match wires with
  | some (.error fault) => .aborted fault
  | _ =>
    mk <$> fields.optional ["name"] "" Document.readText
      <*> fields.optional ["comment"] "" Document.readText
      <*> fields.optional ["blocks"] [] (Document.readList Block.ofDocument)
      <*> (match wires with
        | some (.ok d) => (d.readList Wire.ofDocument).inside (.field "connections")
        | _ => .ok [])

def ofDocument : Document → Reading Network := Document.readRecord "LadderNetwork" ofFields

end Network

end LadderMonitor
