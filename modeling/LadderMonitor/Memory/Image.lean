import LadderMonitor.Fault

namespace LadderMonitor

abbrev Bytes := Array UInt8

namespace Bytes

/-- The place that a signed index names: a negative one counts from the end, and one outside stops
at the nearer end. -/
def position (bytes : Bytes) (index : Int) : Nat :=
  if index < 0 then (index + bytes.size).toNat else min index.toNat bytes.size

def slice (bytes : Bytes) (start stop : Int) : Bytes :=
  bytes.extract (bytes.position start) (bytes.position stop)

/-- The `size` bytes at an address, which must lie inside. -/
def window (bytes : Bytes) (address size : Int) : Except Fault Bytes :=
  if address < 0 || bytes.size < address + size then
    .error (.outsideMemory size address bytes.size)
  else .ok (bytes.slice address (address + size))

/-- Puts bytes at an address on; those that fall outside are dropped. -/
def overwrite (bytes : Bytes) (address : Int) : List UInt8 → Bytes
  | [] => bytes
  | b :: rest =>
    overwrite (if 0 ≤ address then bytes.setIfInBounds address.toNat b else bytes)
      (address + 1) rest

/-- Puts bytes in place of those from `start` up to `stop`. The bytes behind them move if there are
more or fewer than before. -/
def splice (bytes : Bytes) (start stop : Int) (data : List UInt8) : Bytes :=
  let first := bytes.position start
  bytes.extract 0 first ++ data.toArray ++
    bytes.extract (max first (bytes.position stop)) bytes.size

def zeros (size : Nat) : Bytes := Array.replicate size 0

@[simp] theorem size_overwrite (bytes : Bytes) (address : Int) (data : List UInt8) :
    (bytes.overwrite address data).size = bytes.size := by
  induction data generalizing bytes address with
  | nil => rfl
  | cons b rest ih =>
    rw [overwrite, ih]
    split <;> simp

end Bytes

/-- A change of an image that can fail. What it has put into the image by then stays there. -/
abbrev Change := EStateM Fault Bytes

namespace Change

/-- Goes on with what an outcome gives, or fails as it does. The image stays as it is. -/
def require {α : Type} (outcome : Except Fault α) : Change α :=
  match outcome with
  | .ok a => pure a
  | .error fault => throw fault

/-- The image after a change, unless the change fails. -/
def outcome (change : Change Unit) (memory : Bytes) : Except Fault Bytes :=
  match change.run memory with
  | .ok _ after => .ok after
  | .error fault _ => .error fault

end Change

end LadderMonitor
