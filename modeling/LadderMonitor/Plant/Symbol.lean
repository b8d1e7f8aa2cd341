import LadderMonitor.Document.Reading
import LadderMonitor.Plant.Region
import LadderMonitor.Plant.ValueType

namespace LadderMonitor

/-- A named location in a memory region. The address of a bit follows the byte.bit convention:
`10.5` is bit 5 of byte 10. -/
structure Symbol where
  name : String
  location : Region
  type : ValueType
  address : Scalar
  initialValue : Scalar
  comment : String
deriving DecidableEq, Repr

namespace Symbol

def readLocation : Document → Reading Region
  | .text s =>
    match Region.parse? s with
    | some region => .ok region
    | none => .refuse (.rejected (Fault.unknownRegion s).message)
  | d => Document.readNamed Region.all Region.name d

def readType : Document → Reading ValueType
  | .text s =>
    match ValueType.parse? s with
    | some type => .ok type
    | none => .refuse (.rejected (Fault.unknownType s).message)
  | d => Document.readNamed ValueType.all ValueType.name d

def readAddress (d : Document) : Reading Scalar :=
  d.readReal.andThen fun x =>
    if x.isBelowZero then .refuse (.rejected ("address must be >= 0, got " ++ x.text))
    else .ok (.real x)

def ofFields (fields : Fields) : Reading Symbol :=
  mk <$> fields.required ["name"] Document.readText
    <*> fields.required ["location"] readLocation
    <*> fields.optional ["type"] .byte readType
    <*> fields.optional ["address"] (.int 0) readAddress
    <*> fields.optional ["initial_value"] (.int 0) (fun d => d.readReal.map .real)
    <*> fields.optional ["comment"] "" Document.readText

def ofDocument : Document → Reading Symbol := Document.readRecord "Symbol" ofFields

end Symbol

end LadderMonitor
