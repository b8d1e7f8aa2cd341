import LadderMonitor.Text.Blank

namespace LadderMonitor

inductive Region where
  | system | input | output | marker | timer | counter
deriving DecidableEq, Repr

namespace Region

/-- All regions, in the order of the default layout. -/
def all : List Region := [system, input, output, marker, timer, counter]

def name : Region → String
  | system => "system" | input => "input" | output => "output"
  | marker => "marker" | timer => "timer" | counter => "counter"

/-- Bytes for each addressable unit: timers and counters are records. -/
def unit : Region → Nat
  | timer => 9
  | counter => 5
  | _ => 1

def ofName? (s : String) : Option Region := all.find? (·.name == s)

def olderNames : List (String × Region) := [("control", system), ("memory", marker)]

/-- The region that a key names in an older spelling. -/
def older? (key : String) : Option Region := olderNames.lookup key

/-- The region that a text names, in its present or an older spelling, blanks and case aside. -/
def parse? (s : String) : Option Region :=
  let key := Text.nameKey s
  (older? key).or (ofName? key)

theorem mem_all (r : Region) : r ∈ all := by cases r <;> decide

end Region

end LadderMonitor
