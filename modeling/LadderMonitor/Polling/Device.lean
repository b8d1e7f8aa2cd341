import LadderMonitor.Memory.Image

namespace LadderMonitor

/-- How reads are answered: what an address and a size give. -/
abbrev Port := Int → Int → Except Fault Bytes

structure Device where
  memory : Bytes := .zeros 1024
  /-- Reads that start at these addresses fail. -/
  failing : List Int := []
  /-- How many bytes an answer is too long, or too short if negative. -/
  surplus : Int := 0
  /-- Whether reads that are asked now wait until they are released. -/
  holding : Bool := false
deriving DecidableEq, Repr

namespace Device

/-- An access must lie inside the memory. -/
def check (d : Device) (address size : Int) : Except Fault Unit :=
  if address < 0 || size < 0 || d.memory.size < address + size then
    .error (.outsideDevice size address)
  else .ok ()

/-- An answer made too short or too long. -/
def distort (d : Device) (data : Bytes) : Bytes :=
  if d.surplus < 0 then data.extract 0 (data.size - (-d.surplus).toNat)
  else data ++ Array.replicate d.surplus.toNat 0xEE

def read (d : Device) : Port := fun address size =>
  if address ∈ d.failing then .error (.readFailure address)
  else do
    d.check address size
    return d.distort (d.memory.slice address (address + size))

/-- Puts bytes into the memory by way of the device. -/
def write (d : Device) (address : Int) (data : List UInt8) : Except Fault Device := do
  d.check address data.length
  return { d with memory := d.memory.overwrite address data }

/-- Fills a range of the memory with the low byte of a value. -/
def fill (d : Device) (address size value : Int) : Except Fault Device :=
  d.write address (List.replicate size.toNat (UInt8.ofNat (value % 256).toNat))

end Device

end LadderMonitor
