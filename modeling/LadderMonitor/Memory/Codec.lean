import LadderMonitor.Memory.Image
import LadderMonitor.Numeric.Conversion
import LadderMonitor.Plant.Address

namespace LadderMonitor

namespace LittleEndian

/-- The natural number that bytes write, the least significant first. -/
def value : List UInt8 → Nat
  | [] => 0
  | b :: rest => b.toNat + 256 * value rest

/-- The lowest `size` bytes of a natural number, the least significant first. -/
def bytes : Nat → Nat → List UInt8
  | 0, _ => []
  | size + 1, n => UInt8.ofNat (n % 256) :: bytes size (n / 256)

/-- How many natural numbers `size` bytes write. -/
def capacity (size : Nat) : Nat := Nat.pow 256 size

/-- The integer that bytes write, with or without two's complement. -/
def integer (signed : Bool) (data : List UInt8) : Int :=
  let n := value data
  if signed && capacity data.length ≤ 2 * n then (n : Int) - capacity data.length else n

/-- Whether an integer has a form of `size` bytes. No bytes at all write zero and, in two's
complement, minus one. -/
def fits (signed : Bool) (size : Nat) (n : Int) : Bool :=
  if signed then
    if size = 0 then n = 0 || n = -1 else -(capacity size : Int) ≤ 2 * n && 2 * n < capacity size
  else 0 ≤ n && n < capacity size

/-- The form of an integer in `size` bytes. -/
def ofInteger (size : Nat) (n : Int) : List UInt8 := bytes size (n % capacity size).toNat

end LittleEndian

namespace Codec

/-- A bit index must name one of the eight bits of a byte. -/
def checkBit (bit : Int) : Except Fault Nat :=
  if 0 ≤ bit && bit ≤ 7 then .ok bit.toNat else .error (.bitOutOfRange bit)

def firstByte (bytes : Bytes) : Except Fault UInt8 :=
  match bytes[0]? with
  | some b => .ok b
  | none => .error .noBytes

def testBit (b : UInt8) (bit : Nat) : Bool := b.toNat.testBit bit

/-- A byte with one of its bits set or cleared. -/
def putBit (b : UInt8) (bit : Nat) (value : Bool) : UInt8 :=
  if testBit b bit = value then b
  else if value then UInt8.ofNat (b.toNat + Nat.pow 2 bit)
  else UInt8.ofNat (b.toNat - Nat.pow 2 bit)

/-- Sizes from here on, in either direction, are no indexes. -/
def indexLimit : Int := Nat.pow 2 63

/-- Byte strings are shorter than this: what a string needs besides its bytes is an index as well.
-/
def lengthLimit : Int := indexLimit - 33

/-- Reads a value from the bytes that start at its address. A value of several bytes is
little-endian. With a bit index it is that bit of the first byte; of the bit type without an index,
it tells whether the first byte is non-zero. -/
def decode (r : ResolvedAddress) (data : Bytes) : Except Fault Scalar :=
  if (data.size : Int) < r.size then .error (.tooFewBytes r.size r.type data.size)
  else
    let raw := data.slice 0 r.size
    match r.bit with
    | some bit => do
      let bit ← checkBit bit
      return .bool (testBit (← firstByte raw) bit)
    | none =>
      if r.type = .bit then do return .bool ((← firstByte raw) != 0)
      else if r.type.isReal then
        if r.size = 4 then .ok (.real (Single.toDouble (LittleEndian.value raw.toList)))
        else if r.size = 8 then .ok (.real ⟨UInt64.ofNat (LittleEndian.value raw.toList)⟩)
        else .error (.floatWidth r.size)
      else .ok (.int (LittleEndian.integer r.type.isSigned raw.toList))

def read (memory : Bytes) (r : ResolvedAddress) : Except Fault Scalar := do
  decode r (← memory.window r.address r.size)

/-- Whether the value at an address is other than zero. -/
def readTruth (memory : Bytes) (r : ResolvedAddress) : Except Fault Bool :=
  (read memory r).map Scalar.truth

def encodeReal (size : Int) (value : Scalar) : Except Fault (List UInt8) :=
  if size = 4 then do
    match Single.ofDouble? (← value.toDouble) with
    | some bits => return LittleEndian.bytes 4 bits
    | none => throw .singleTooLarge
  else if size = 8 then do return LittleEndian.bytes 8 (← value.toDouble).bits.toNat
  else .error (.floatWidth size)

/-- The bytes of an integer value. An infinity is outside every range. -/
def encodeInteger (r : ResolvedAddress) (value : Scalar) : Except Fault (List UInt8) :=
  match value.toInt with
  | .error .integerOfInfinity => .error (.doesNotFit value r.type)
  | .error fault => .error fault
  | .ok n =>
    if r.size < -indexLimit || lengthLimit ≤ r.size then .error (.doesNotFit value r.type)
    else if r.size < 0 then .error .negativeLength
    else if LittleEndian.fits r.type.isSigned r.size.toNat n then
      .ok (LittleEndian.ofInteger r.size.toNat n)
    else .error (.doesNotFit value r.type)

def encode (r : ResolvedAddress) (value : Scalar) : Except Fault (List UInt8) :=
  if r.type.isReal then encodeReal r.size value else encodeInteger r value

/-- Sets or clears one bit of the byte at an address; without an index it is bit 0. -/
def putBitAt (r : ResolvedAddress) (value : Bool) : Change Unit := do
  let bit ← Change.require (checkBit (r.bit.getD 0))
  let window ← Change.require ((← get).window r.address 1)
  let current ← Change.require (firstByte window)
  modify (·.overwrite r.address [putBit current bit value])

/-- Puts a value at an address: a bit among the other bits of its byte, the bytes of a whole value
in place of those that were there. -/
def put (r : ResolvedAddress) (value : Scalar) : Change Unit :=
  match r.bit with
  | some _ => putBitAt r value.truth
  | none => do
    let _ ← Change.require ((← get).window r.address r.size)
    let data ← Change.require (encode r value)
    modify (·.splice r.address r.stop data)

def writeBit (memory : Bytes) (r : ResolvedAddress) (value : Bool) : Except Fault Bytes :=
  (putBitAt r value).outcome memory

def write (memory : Bytes) (r : ResolvedAddress) (value : Scalar) : Except Fault Bytes :=
  (put r value).outcome memory

end Codec

end LadderMonitor
