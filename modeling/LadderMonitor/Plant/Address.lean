import LadderMonitor.Document.Reading
import LadderMonitor.Plant.ValueType

namespace LadderMonitor

/-- Where a value lies in device memory and how it is read. A bit index names one bit of the byte at
the address. -/
structure ResolvedAddress where
  address : Int
  size : Int
  bit : Option Int
  type : ValueType
deriving DecidableEq, Repr

namespace ResolvedAddress

def stop (r : ResolvedAddress) : Int := r.address + r.size

def ofFields (fields : Fields) : Reading ResolvedAddress :=
  mk <$> fields.required ["address"] Document.readInteger
    <*> fields.required ["size"] Document.readInteger
    <*> fields.optional ["bit"] none (Document.readOptional Document.readInteger)
    <*> fields.required ["type"] (Document.readNamed ValueType.all ValueType.name)

def ofDocument : Document → Reading ResolvedAddress :=
  Document.readRecord "ResolvedAddress" ofFields

end ResolvedAddress

end LadderMonitor
