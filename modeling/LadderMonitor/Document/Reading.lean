import LadderMonitor.Document.Basic
import LadderMonitor.Document.Issue
import LadderMonitor.Numeric.Numeral
import LadderMonitor.Text.Blank

namespace LadderMonitor

/-- What reading a value out of a document comes to: the value, all issues of its parts in order, or
a failure that is no issue of the document and ends the reading at once, whatever has been found so
far. -/
inductive Reading (α : Type) where
  | ok (value : α)
  | refused (issues : List Issue)
  | aborted (fault : Fault)

namespace Reading

variable {α β : Type}

def map (f : α → β) : Reading α → Reading β
  | ok value => ok (f value)
  | refused issues => refused issues
  | aborted fault => aborted fault

/-- Two readings one after the other: the issues of both, unless one of them is aborted. -/
def both (f : Reading (α → β)) (x : Reading α) : Reading β :=
  match f, x with
  | aborted fault, _ => aborted fault
  | _, aborted fault => aborted fault
  | ok f, ok value => ok (f value)
  | refused issues, ok _ => refused issues
  | ok _, refused issues => refused issues
  | refused earlier, refused later => refused (earlier ++ later)

instance : Applicative Reading where
  pure := ok
  seq f x := both f (x ())

/-- A reading that starts only when an earlier one has succeeded. -/
def andThen (x : Reading α) (next : α → Reading β) : Reading β :=
  match x with
  | ok value => next value
  | refused issues => refused issues
  | aborted fault => aborted fault

/-- A single issue with the value that is read. -/
def refuse (complaint : Complaint) : Reading α := refused [⟨[], complaint⟩]

/-- Places the issues of a reading one step further inside. -/
def inside (step : PathStep) : Reading α → Reading α
  | refused issues => refused (issues.map fun issue => { issue with path := step :: issue.path })
  | reading => reading

/-- Adds a condition on the value that is read. -/
def require (x : Reading α) (condition : α → Bool) (complaint : Complaint) : Reading α :=
  x.andThen fun value => if condition value then ok value else refuse complaint

end Reading

namespace Document

open Reading

variable {α : Type}

def readItems (read : Document → Reading α) : Nat → List Document → Reading (List α)
  | _, [] => ok []
  | position, item :: rest =>
    List.cons <$> (read item).inside (.index position) <*> readItems read (position + 1) rest

def readList (read : Document → Reading α) : Document → Reading (List α)
  | list items => readItems read 0 items
  | _ => refuse .notList

def readText : Document → Reading String
  | text value => ok value
  | _ => refuse .notText

/-- An integer: also a truth value, a number without fraction, or text that writes a whole number.
-/
def readInteger : Document → Reading Int
  | int value => ok value
  | bool value => ok (if value then 1 else 0)
  | real x =>
    match x.view with
    | .finite value => if value.den = 1 then ok value.num else refuse .fraction
    | _ => refuse .notFinite
  | text s =>
    match Numeral.integer? (Text.trimBoth Text.isWhite s.toList) with
    | some value => ok value
    | none => refuse .integerText
  | _ => refuse .notInteger

def readNatural (d : Document) : Reading Nat :=
  (d.readInteger.require (0 ≤ ·) .belowZero).map Int.toNat

def readPositive (d : Document) : Reading Nat :=
  (d.readInteger.require (0 < ·) .notPositive).map Int.toNat

/-- A floating-point number: also a truth value, an integer that a finite number can stand for, or
text that writes a number. -/
def readReal : Document → Reading Double
  | real x => ok x
  | int value => if (Double.ofInt value).isFinite then ok (.ofInt value) else refuse .notReal
  | bool value => ok (if value then .ofInt 1 else .zero)
  | text s =>
    match Numeral.real? (Text.trimBoth Text.isWhite s.toList) with
    | some x => ok x
    | none => refuse .realText
  | _ => refuse .notReal

def truthWords : List (String × Bool) :=
  [("0", false), ("off", false), ("f", false), ("false", false), ("n", false), ("no", false),
   ("1", true), ("on", true), ("t", true), ("true", true), ("y", true), ("yes", true)]

/-- A truth value: also a number that is zero or one, or one of the words for them in any letter
case. -/
def readTruth : Document → Reading Bool
  | bool value => ok value
  | int value =>
    if value = 0 then ok false else if value = 1 then ok true else refuse .truthText
  | real x =>
    match x.view with
    | .finite value =>
      if value = 0 then ok false else if value = 1 then ok true
      else if value.den = 1 then refuse .truthText else refuse .notTruthValue
    | _ => refuse .notTruthValue
  | text s =>
    match truthWords.lookup (String.ofList (s.toList.map Char.toLower)) with
    | some value => ok value
    | none => refuse .truthText
  | _ => refuse .notTruthValue

def readNamed (all : List α) (name : α → String) : Document → Reading α
  | text s =>
    match all.find? (name · == s) with
    | some value => ok value
    | none => refuse (.notOneOf (all.map name))
  | _ => refuse (.notOneOf (all.map name))

def readOptional (read : Document → Reading α) : Document → Reading (Option α)
  | null => ok none
  | d => (read d).map some

/-- The entries of an object that a record is read from. -/
def readRecord (model : String) (read : List (String × Document) → Reading α) :
    Document → Reading α
  | object entries => read entries
  | _ => refuse (.notModel model)

end Document

/-- The entries of an object, as the fields of a record. -/
abbrev Fields := List (String × Document)

namespace Fields

variable {α : Type}

/-- A field under the first of its names that is present, and that name. -/
def get? (fields : Fields) (names : List String) : Option (String × Document) :=
  names.findSome? fun name => (List.lookup name fields).map fun d => (name, d)

/-- A field that must be present. Issues are placed under the name that it has, and under its first
name if it is missing. -/
def required (fields : Fields) (names : List String) (read : Document → Reading α) : Reading α :=
  match fields.get? names with
  | some (name, d) => (read d).inside (.field name)
  | none => (Reading.refuse .missing).inside (.field (names.headD ""))

/-- A field with a value for its absence. -/
def optional (fields : Fields) (names : List String) (absent : α)
    (read : Document → Reading α) : Reading α :=
  match fields.get? names with
  | some (name, d) => (read d).inside (.field name)
  | none => .ok absent

end Fields

end LadderMonitor
