import LadderMonitor.Ladder.Network
import LadderMonitor.Plant.Layout
import LadderMonitor.Plant.Symbol

namespace LadderMonitor

/-- A project as the monitor uses it. -/
structure Project where
  name : String
  offsets : RegionTable
  symbols : List Symbol
  networks : List Network
deriving DecidableEq, Repr

namespace Project

def symbol? (p : Project) (name : String) : Option Symbol := p.symbols.find? (·.name == name)

/-- The first symbol name that occurred before in the list. -/
def firstDuplicate : List String → List String → Option String
  | _, [] => none
  | seen, name :: rest =>
    if name ∈ seen then some name else firstDuplicate (name :: seen) rest

/-- The conditions on a whole project: no two regions overlap, and no two symbols share a name. -/
def check (p : Project) : Reading Project :=
  match p.offsets.firstOverlap with
  | some (a, b) => .refuse (.rejected (RegionTable.overlapReason a b))
  | none =>
    match firstDuplicate [] (p.symbols.map (·.name)) with
    | some name => .refuse (.rejected ("duplicate symbol name '" ++ name ++ "'"))
    | none => .ok p

/-- The document that a project lays its memory out by. -/
def layoutOf (fields : Fields) : Document := (List.lookup "offsets" fields).getD .null

/-- A project whose fields are read one by one. -/
def parts (fields : Fields) : Reading Project :=
  mk <$> fields.optional ["name"] "" Document.readText
    <*> (Layout.ofDocument (layoutOf fields)).inside (.field "offsets")
    <*> fields.optional ["symbols"] [] (Document.readList Symbol.ofDocument)
    <*> fields.optional ["networks"] [] (Document.readList Network.ofDocument)

def ofFields (fields : Fields) : Reading Project := (parts fields).andThen check

def ofDocument : Document → Reading Project := Document.readRecord "Project" ofFields

/-- A project without symbols and networks, in the default layout. -/
def empty : Project := ⟨"", RegionTable.complete RegionTable.defaultOf [], [], []⟩

end Project

end LadderMonitor
