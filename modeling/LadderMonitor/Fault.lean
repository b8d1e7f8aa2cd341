import LadderMonitor.Numeric.Scalar
import LadderMonitor.Plant.ValueType
import LadderMonitor.Text.Quoted
import LadderMonitor.Text.Utf8

namespace LadderMonitor

/-- Why numbers name no day or no time of day. -/
inductive DateFlaw where
  | year (given : Nat)
  | month
  | day
  | hour
  | minute
  | second
deriving DecidableEq, Repr

namespace DateFlaw

def message : DateFlaw → String
  | year given => "year " ++ toString given ++ " is out of range"
  | month => "month must be in 1..12"
  | day => "day is out of range for month"
  | hour => "hour must be in 0..23"
  | minute => "minute must be in 0..59"
  | second => "second must be in 0..59"

end DateFlaw

/-- Why an operation failed. -/
inductive Fault where
  | unknownType (given : String)
  | unknownRegion (given : String)
  /-- An integer was asked of a value that is no number. -/
  | integerOfNaN
  /-- An integer was asked of an infinity. -/
  | integerOfInfinity
  /-- A run of digits is too long to be read as an integer. -/
  | tooManyDigits (count : Nat)
  /-- An integer exceeds the floating-point numbers. -/
  | integerTooLarge
  /-- A poll interval in seconds exceeds the floating-point numbers. -/
  | quotientTooLarge
  | singleTooLarge
  /-- An integer was to be written into fewer than no bytes. -/
  | negativeLength
  /-- The first byte was asked of no bytes at all. -/
  | noBytes
  /-- A window of batches was asked of an empty list. -/
  | emptyWindow
  | letterWithoutRegion (letter : Char)
  | noEntry (name : String)
  | bitOutOfRange (bit : Int)
  | outsideMemory (size address : Int) (length : Nat)
  /-- There are fewer bytes than the value takes. -/
  | tooFewBytes (size : Int) (type : ValueType) (got : Nat)
  /-- No floating-point format has this many bytes. -/
  | floatWidth (size : Int)
  | doesNotFit (value : Scalar) (type : ValueType)
  /-- The device was told to fail reads at this address. -/
  | readFailure (address : Int)
  /-- An access does not lie inside the device memory. -/
  | outsideDevice (size address : Int)
  | connectedFailed
  | activeFailed
  /-- A subscriber or listener failed by itself. -/
  | reactionFailed
  /-- Reactions caused one another beyond the depth that is followed. -/
  | tooDeep
  | noMapping (kind : String)
  /-- A list was asked of a value that has no elements. -/
  | notIterable (kind : String)
  | keyNotText
  /-- The project handed to the monitor is neither a project nor a mapping. -/
  | noProject (kind : String)
  | noDevice (kind : String)
  | undecodable (flaw : Utf8.Flaw)
  /-- A text that is marked as an integer writes none in this base. -/
  | integerText (base : Nat) (text : String)
  | realText (text : String)
  | emptyNumeral
  | truthText (text : String)
  | dateText
  | noSuchDate (flaw : DateFlaw)
  /-- An escape names a character beyond the last one. -/
  | characterNumber
  | settings (key reason : String)
deriving DecidableEq, Repr

namespace Fault

def wording : Fault → String
  | unknownType given => "Unknown semantic type: " ++ Text.quoted given
  | unknownRegion given => "Unknown memory region: " ++ Text.quoted given
  | integerOfNaN => "cannot convert float NaN to integer"
  | integerOfInfinity => "cannot convert float infinity to integer"
  | tooManyDigits count =>
    "Exceeds the limit (4300 digits) for integer string conversion: value has " ++ toString count ++
      " digits; use sys.set_int_max_str_digits() to increase the limit"
  | integerTooLarge => "int too large to convert to float"
  | quotientTooLarge => "integer division result too large for a float"
  | singleTooLarge => "float too large to pack with f format"
  | negativeLength => "length argument must be non-negative"
  | noBytes => "index out of range"
  | emptyWindow => "integer modulo by zero"
  | letterWithoutRegion letter => Text.quoted (String.singleton letter)
  | noEntry name => Text.quoted name
  | bitOutOfRange bit => "Bit index out of range: " ++ toString bit
  | outsideMemory size address length =>
    "Read of " ++ toString size ++ " byte(s) at " ++ toString address ++ " outside memory of " ++
      toString length ++ " bytes"
  | tooFewBytes size type got =>
    "Expected " ++ toString size ++ " byte(s) for " ++ type.name ++ ", got " ++ toString got
  | floatWidth size => "Unsupported float width: " ++ toString size
  | doesNotFit value type => "Value " ++ value.text ++ " does not fit in " ++ type.name
  | readFailure address => "Simulated read failure at " ++ toString address
  | outsideDevice size address =>
    "Access of " ++ toString size ++ " byte(s) at " ++ toString address ++ " outside device memory"
  | connectedFailed => "connected predicate failed"
  | activeFailed => "active predicate failed"
  | reactionFailed => "reaction failed"
  | tooDeep => "maximum depth of reactions exceeded"
  | noMapping kind => Text.quoted kind ++ " object has no attribute 'items'"
  | notIterable kind => Text.quoted kind ++ " object is not iterable"
  | keyNotText => "keywords must be strings"
  | noProject kind => "monitor() expects a Project or project mapping, got " ++ kind
  | noDevice kind => "monitor() expects a port with read_memory(), got " ++ kind
  | undecodable flaw => flaw.message
  | integerText base text =>
    "invalid literal for int() with base " ++ toString base ++ ": " ++ Text.quoted text
  | realText text => "could not convert string to float: " ++ Text.quoted text
  | emptyNumeral => "string index out of range"
  | truthText text => Text.quoted text
  | dateText => "'NoneType' object has no attribute 'groupdict'"
  | noSuchDate flaw => flaw.message
  | characterNumber => "chr() arg not in range(0x110000)"
  | settings key reason => "Configuration error for '" ++ key ++ "': " ++ reason

/-- Whether an integer is short enough to be written out: it has at most 4300 digits. -/
def isShort (n : Int) : Bool := n.natAbs < Nat.pow 10 4300

/-- Whether all integers in the wording of a failure are short enough to be written out. -/
def isWordable : Fault → Bool
  | bitOutOfRange n | tooFewBytes n .. | floatWidth n | readFailure n | doesNotFit (.int n) _ =>
    isShort n
  | outsideMemory size address _ | outsideDevice size address => isShort size && isShort address
  | _ => true

/-- What is said of a failure. If it cannot be worded, that is what is said, and it counts as a
failure of another kind. -/
def message (fault : Fault) : String :=
  if fault.isWordable then fault.wording
  else "Exceeds the limit (4300 digits) for integer string conversion; " ++
    "use sys.set_int_max_str_digits() to increase the limit"

/-- The failures of reading or writing memory for which the monitor has an error of its own. -/
def isAccess : Fault → Bool
  | bitOutOfRange _ | outsideMemory .. | tooFewBytes .. | floatWidth _ | doesNotFit .. |
    readFailure _ | outsideDevice .. | settings .. => true
  | _ => false

/-- Whether the monitor reports a failure as its own. It cannot report one that it has no words for.
Whoever shows values treats a value whose failure is reported as absent; all other failures go on to
the caller. -/
structure Reported (fault : Fault) : Prop where
  access : fault.isAccess
  wordable : fault.isWordable

instance (fault : Fault) : Decidable fault.Reported :=
  decidable_of_iff (fault.isAccess ∧ fault.isWordable)
    ⟨fun h => ⟨h.1, h.2⟩, fun h => ⟨h.access, h.wordable⟩⟩

end Fault

end LadderMonitor
