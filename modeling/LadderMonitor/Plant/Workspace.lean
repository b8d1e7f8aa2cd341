import LadderMonitor.Plant.Project

namespace LadderMonitor

/-- A project and networks beside its own. Networks are numbered, the project's first. Besides they
have identities, in no particular order, by which those without a name are told apart. -/
structure Workspace where
  project : Project := .empty
  extra : List Network := []
  identities : List Nat := []
deriving DecidableEq, Repr

namespace Workspace

def networks (w : Workspace) : List Network := w.project.networks ++ w.extra

def network? (w : Workspace) (net : Nat) : Option Network := w.networks[net]?

def identity (w : Workspace) (net : Nat) : Nat := w.identities.getD net net

def modify (w : Workspace) (net : Nat) (change : Network → Network) : Workspace :=
  let own := w.project.networks.length
  if net < own then
    { w with project.networks := w.project.networks.modify net change }
  else { w with extra := w.extra.modify (net - own) change }

end Workspace

inductive SymbolChange where
  | type (value : ValueType)
  | location (value : Region)
  | address (value : Scalar)
  | initialValue (value : Scalar)
deriving DecidableEq, Repr

inductive BlockChange where
  | kind (value : BlockKind)
  | x (value : Int)
  | inverted (value : Bool)
  | trigger (value : Trigger)
  | symbol (value : String)
  | dropState
deriving DecidableEq, Repr

/-- An edit of a project or of one of its networks. Names and ids mean their first bearer. No edit
renames a network, although what is attached, due and registered for one is kept under its name. -/
inductive Edit where
  | changeSymbol (name : String) (change : SymbolChange)
  | addSymbol (symbol : Symbol)
  | deleteSymbol (name : String)
  | setRegion (region : Region) (value : MemoryRegion)
  | moveRegion (region : Region) (offset : Int)
  | deleteRegion (region : Region)
  | changeBlock (net : Nat) (id : String) (change : BlockChange)
  | addBlock (net : Nat) (block : Block)
  | deleteBlock (net : Nat) (id : String)
  | addWire (net : Nat) (source target : String)
  | deleteWire (net : Nat) (position : Nat)
deriving DecidableEq, Repr

/-- Changes the first element with a property. -/
def modifyFirst {α : Type} (p : α → Bool) (change : α → α) : List α → List α
  | [] => []
  | a :: rest => if p a then change a :: rest else a :: modifyFirst p change rest

namespace SymbolChange

def apply (s : Symbol) : SymbolChange → Symbol
  | type value => { s with type := value }
  | location value => { s with location := value }
  | address value => { s with address := value }
  | initialValue value => { s with initialValue := value }

end SymbolChange

namespace BlockChange

def apply (b : Block) : BlockChange → Block
  | kind value => { b with kind := value }
  | x value => { b with x := value }
  | inverted value => { b with inverted := value }
  | trigger value => { b with trigger := value }
  | symbol value => { b with symbol := value }
  | dropState => { b with state := none }

end BlockChange

namespace Project

def withSymbols (p : Project) (change : List Symbol → List Symbol) : Project :=
  { p with symbols := change p.symbols }

def withOffsets (p : Project) (change : RegionTable → RegionTable) : Project :=
  { p with offsets := change p.offsets }

end Project

namespace Edit

def moved (region : Region) (offset : Int) (table : RegionTable) : RegionTable :=
  modifyFirst (·.1 == region) (fun e => (e.1, { e.2 with offset })) table

def apply (w : Workspace) : Edit → Workspace
  | changeSymbol name change =>
    { w with project := w.project.withSymbols (modifyFirst (·.name == name) change.apply) }
  | addSymbol symbol => { w with project := w.project.withSymbols (· ++ [symbol]) }
  | deleteSymbol name => { w with project := w.project.withSymbols (·.eraseP (·.name == name)) }
  | setRegion region value => { w with project := w.project.withOffsets (Assoc.set region value) }
  | moveRegion region offset => { w with project := w.project.withOffsets (moved region offset) }
  | deleteRegion region => { w with project := w.project.withOffsets (Assoc.erase region) }
  | changeBlock net id change =>
    w.modify net fun n => { n with blocks := modifyFirst (·.id == id) change.apply n.blocks }
  | addBlock net block => w.modify net fun n => { n with blocks := n.blocks ++ [block] }
  | deleteBlock net id => w.modify net fun n => { n with blocks := n.blocks.eraseP (·.id == id) }
  | addWire net source target =>
    w.modify net fun n => { n with wires := n.wires ++ [⟨source, target, none⟩] }
  | deleteWire net position => w.modify net fun n => { n with wires := n.wires.eraseIdx position }

end Edit

end LadderMonitor
