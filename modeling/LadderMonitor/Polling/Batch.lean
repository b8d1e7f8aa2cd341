import LadderMonitor.Fault

namespace LadderMonitor

/-- The addresses from a start on. -/
structure ByteRange where
  start : Int
  size : Int
deriving DecidableEq, Repr

namespace ByteRange

def stop (r : ByteRange) : Int := r.start + r.size

/-- Whether a range comes before another one: by its start, then by its size. -/
def precedes (a b : ByteRange) : Bool := a.start < b.start || (a.start = b.start && a.size < b.size)

/-- Puts a range into its place in a sorted list, unless the list has it. -/
def insertSorted (r : ByteRange) : List ByteRange → List ByteRange
  | [] => [r]
  | s :: rest =>
    if r = s then s :: rest
    else if r.precedes s then r :: s :: rest
    else s :: insertSorted r rest

/-- The distinct ranges of a list, in order. -/
def sortDistinct (ranges : List ByteRange) : List ByteRange := ranges.foldr insertSorted []

end ByteRange

/-- Items whose ranges are fetched by one read. -/
structure Batch (α : Type) where
  start : Int
  stop : Int
  items : List α
deriving DecidableEq, Repr

namespace Batch

variable {α : Type}

def size (b : Batch α) : Int := b.stop - b.start

def range (b : Batch α) : ByteRange := ⟨b.start, b.size⟩

def single (range : α → ByteRange) (item : α) : Batch α :=
  ⟨(range item).start, (range item).stop, [item]⟩

/-- Whether a range may join a batch: the gap between them is small enough, and the joined batch not
too long. -/
def admits (gapThreshold maxSize : Int) (b : Batch α) (r : ByteRange) : Bool :=
  r.start - b.stop < gapThreshold && r.stop - b.start ≤ maxSize

def add (range : α → ByteRange) (b : Batch α) (item : α) : Batch α :=
  { b with stop := max b.stop (range item).stop, items := b.items ++ [item] }

/-- Puts an item in front of the first one that does not start before it. -/
def insertByStart (range : α → ByteRange) (item : α) : List α → List α
  | [] => [item]
  | other :: rest =>
    if (range item).start ≤ (range other).start then item :: other :: rest
    else other :: insertByStart range item rest

/-- Items by the starts of their ranges; items with one start keep their order. -/
def sortByStart (range : α → ByteRange) (items : List α) : List α :=
  items.foldr (insertByStart range) []

/-- Continues a batch with items that are in order. -/
def gather (range : α → ByteRange) (gapThreshold maxSize : Int) (current : Batch α) :
    List α → List (Batch α)
  | [] => [current]
  | item :: rest =>
    if current.admits gapThreshold maxSize (range item) then
      gather range gapThreshold maxSize (current.add range item) rest
    else current :: gather range gapThreshold maxSize (single range item) rest

/-- Gathers items into batches. -/
def cluster (range : α → ByteRange) (gapThreshold maxSize : Int) (items : List α) :
    List (Batch α) :=
  match sortByStart range items with
  | [] => []
  | item :: rest => gather range gapThreshold maxSize (single range item) rest

/-- The choice of a tick: all batches if there are no more than the limit, otherwise a window of
that many from the cursor on, and the cursor behind it. -/
def select {β : Type} (batches : List β) (cursor limit : Int) : Except Fault (List β × Int) :=
  let count := batches.length
  if (count : Int) ≤ limit then .ok (batches, 0)
  else if count = 0 then .error .emptyWindow
  else
    let start := cursor.fmod count
    let chosen := (List.range limit.toNat).filterMap fun i => batches[(start.toNat + i) % count]?
    .ok (chosen, (start + limit).fmod count)

end Batch

end LadderMonitor
