import LadderMonitor.Assoc
import LadderMonitor.Document.Reading
import LadderMonitor.Plant.Region

namespace LadderMonitor

/-- The addresses from an offset on. -/
structure MemoryRegion where
  offset : Int
  size : Int
deriving DecidableEq, Repr

namespace MemoryRegion

def stop (r : MemoryRegion) : Int := r.offset + r.size

def Contains (r : MemoryRegion) (address : Int) : Prop := r.offset ≤ address ∧ address < r.stop

instance (r : MemoryRegion) (address : Int) : Decidable (r.Contains address) :=
  inferInstanceAs (Decidable (_ ∧ _))

/-- Whether two regions share an address; empty regions share none. -/
def overlaps (a b : MemoryRegion) : Bool :=
  if a.size = 0 || b.size = 0 then false else a.offset < b.stop && b.offset < a.stop

def ofFields (fields : Fields) : Reading MemoryRegion :=
  (fun (offset size : Nat) => ⟨offset, size⟩) <$>
    fields.optional ["offset"] 0 Document.readNatural <*>
    fields.optional ["size"] 0 Document.readNatural

def ofDocument : Document → Reading MemoryRegion := Document.readRecord "MemoryRegion" ofFields

end MemoryRegion

/-- Where each region lies, in the order in which the regions were first named. -/
abbrev RegionTable := List (Region × MemoryRegion)

/-- How a key of a layout spells its region. -/
inductive Spelling where
  | canonical
  | older
deriving DecidableEq, Repr

namespace RegionTable

/-- The default layout. Timers and counters take no bytes until a program uses them. -/
def defaultOf : Region → MemoryRegion
  | .system => ⟨0, 64⟩
  | .input => ⟨64, 64⟩
  | .output => ⟨128, 64⟩
  | .marker => ⟨192, 256⟩
  | .timer => ⟨448, 0⟩
  | .counter => ⟨448, 0⟩

/-- Completes a layout. A region has the last value under its canonical spelling, else the last one
under an older spelling, else its default. Its place in the table is that of its first appearance
among the canonical keys, then the older ones, then the defaults. -/
def complete {α : Type} (default : Region → α) (entries : List (Spelling × Region × α)) :
    List (Region × α) :=
  let spelled (s : Spelling) :=
    (entries.filter (·.1 = s)).foldl (fun table e => Assoc.set e.2.1 e.2.2 table) []
  let withOlder :=
    (spelled .older).foldl (fun table e => Assoc.setAbsent e.1 e.2 table) (spelled .canonical)
  Region.all.foldl (fun table r => Assoc.setAbsent r (default r) table) withOlder

/-- The first region of a layout that lies under the name, if any. -/
def find? (table : RegionTable) (region : Region) : Option MemoryRegion := Assoc.get? region table

def base (table : RegionTable) (region : Region) : Int :=
  ((table.find? region).map (·.offset)).getD 0

/-- The first pair of regions that overlap, in table order. -/
def firstOverlap : RegionTable → Option ((Region × MemoryRegion) × (Region × MemoryRegion))
  | [] => none
  | a :: rest =>
    match rest.find? fun b => a.2.overlaps b.2 with
    | some b => some (a, b)
    | none => firstOverlap rest

def overlapReason (a b : Region × MemoryRegion) : String :=
  let span (e : Region × MemoryRegion) :=
    "'" ++ e.1.name ++ "' [" ++ toString e.2.offset ++ ", " ++ toString e.2.stop ++ ")"
  "memory regions " ++ span a ++ " and " ++ span b ++ " overlap"

end RegionTable

/-- The value that a layout document gives a region: a region, or something else that is kept as it
is and refused when a layout is asked for. -/
inductive RegionEntry where
  | region (value : MemoryRegion)
  | other (value : Document)

/-- A key of a layout: a text that names a region, or a region that has been found already. -/
inductive LayoutKey where
  | text (name : String)
  | region (value : Region)
deriving DecidableEq, Repr

namespace Layout

/-- Whether a key is an older spelling. -/
def spelling (key : String) : Spelling :=
  if (Region.older? (Text.nameKey key)).isSome then .older else .canonical

/-- The entry of a layout document for a key. A key that names no region ends the reading. -/
def readEntry (key : String) (value : Document) : Reading (Spelling × Region × RegionEntry) :=
  match Region.parse? key with
  | none => .aborted (.unknownRegion key)
  | some region =>
    match value with
    | .object fields =>
      (MemoryRegion.ofFields fields).map fun r => (spelling key, region, .region r)
    | other => .ok (spelling key, region, .other other)

/-- The entries of a layout document, up to the first bad one. -/
def readEntries : List (String × Document) → Reading (List (Spelling × Region × RegionEntry))
  | [] => .ok []
  | (key, value) :: rest =>
    (readEntry key value).andThen fun entry => (readEntries rest).map (entry :: ·)

/-- Completes the entries of a layout document. -/
def normalize (entries : List (String × Document)) : Reading (List (Region × RegionEntry)) :=
  (readEntries entries).map (RegionTable.complete fun r => .region (RegionTable.defaultOf r))

/-- The region of a key, and how the key spells it. -/
def readKey : LayoutKey → Reading (Spelling × Region)
  | .text name =>
    match Region.parse? name with
    | none => .aborted (.unknownRegion name)
    | some region => .ok (spelling name, region)
  | .region region => .ok (.canonical, region)

/-- Reads the region that an object describes. Every other value stays as it is. -/
def readValue : RegionEntry → Reading RegionEntry
  | .other (.object fields) => (MemoryRegion.ofFields fields).map .region
  | value => .ok value

/-- The entries of a layout that may have been completed before, up to the first bad one. -/
def readTable : List (LayoutKey × RegionEntry) → Reading (List (Spelling × Region × RegionEntry))
  | [] => .ok []
  | (key, value) :: rest =>
    (readKey key).andThen fun (spelling, region) =>
      (readValue value).andThen fun value =>
        (readTable rest).map ((spelling, region, value) :: ·)

/-- Completes a layout that may have been completed before. -/
def completeTable (entries : List (LayoutKey × RegionEntry)) :
    Reading (List (Region × RegionEntry)) :=
  (readTable entries).map (RegionTable.complete fun r => .region (RegionTable.defaultOf r))

/-- Checks that every entry of a completed layout is a region. -/
def regions : List (Region × RegionEntry) → Reading RegionTable
  | [] => .ok []
  | (name, .region r) :: rest => (regions rest).map ((name, r) :: ·)
  | (name, .other _) :: rest =>
    List.cons <$> (Reading.refuse (.notModel "MemoryRegion")).inside (.field name.name)
      <*> regions rest

/-- The entries of a layout document: those of an object, none for an empty value. -/
def entries (d : Document) : Except Fault (List (String × Document)) :=
  match d with
  | .object entries => .ok entries
  | other => if other.truth then .error (.noMapping other.kind) else .ok []

/-- Reads a layout from a document. A key that names no region is an issue of the layout. -/
def ofDocument (d : Document) : Reading RegionTable :=
  match entries d with
  | .error fault => .aborted fault
  | .ok entries =>
    match normalize entries with
    | .ok table => regions table
    | .refused issues => .refused issues
    | .aborted fault => .refuse (.rejected fault.message)

end Layout

end LadderMonitor
