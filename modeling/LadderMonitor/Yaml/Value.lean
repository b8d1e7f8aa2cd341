import LadderMonitor.Document.Basic
import LadderMonitor.Text.Utf8

namespace LadderMonitor.Yaml

/-- The value of a document, with keys of any scalar type. Dates are checked but not kept, for
nothing here makes use of one. -/
inductive Value where
  | null
  | bool (value : Bool)
  | int (value : Int)
  | real (value : Double)
  | text (value : String)
  | bytes (value : List UInt8)
  | date
  | moment
  | list (items : List Value)
  | set (members : List Value)
  | mapping (entries : List (Value × Value))
  /-- A reference to a collection around the reference. -/
  | enclosing (isMapping : Bool)
deriving Inhabited

namespace Value

def kind : Value → String
  | null => "NoneType"
  | bool _ => "bool"
  | int _ => "int"
  | real _ => "float"
  | text _ => "str"
  | bytes _ => "bytes"
  | date => "date"
  | moment => "datetime"
  | list _ => "list"
  | set _ => "set"
  | mapping _ => "dict"
  | enclosing isMapping => if isMapping then "dict" else "list"

/-- Whether a value counts as present: zeros and empty values do not. -/
def truth : Value → Bool
  | null => false
  | bool value => value
  | int value => value != 0
  | real value => !value.isZero
  | text value => !value.isEmpty
  | bytes value => !value.isEmpty
  | date | moment | enclosing _ => true
  | list items => !items.isEmpty
  | set members => !members.isEmpty
  | mapping entries => !entries.isEmpty

/-- Whether a value may be a key. -/
def isKey : Value → Bool
  | list _ | set _ | mapping _ | enclosing _ => false
  | _ => true

def isText : Value → Bool
  | text _ => true
  | _ => false

def hasText (name : String) : Value → Bool
  | text value => value == name
  | _ => false

/-- Puts a value under a key. A text that is a key already keeps its place. -/
def put (entries : List (Value × Value)) (key value : Value) : List (Value × Value) :=
  match key with
  | text name =>
    if entries.any (·.1.hasText name) then
      entries.map fun e => if e.1.hasText name then (e.1, value) else e
    else entries ++ [(key, value)]
  | _ => entries ++ [(key, value)]

/-- The value under a text in the entries of a mapping. -/
def lookup? (name : String) (entries : List (Value × Value)) : Option Value :=
  (entries.find? (·.1.hasText name)).map (·.2)

mutual

/-- The value as a document. Bytes are given as the text that they write; entries whose key is no
text have no place in a document. -/
def toDocument : Value → Document
  | null => .null
  | bool value => .bool value
  | int value => .int value
  | real value => .real value
  | text value => .text value
  | bytes value =>
    match Utf8.decode value with
    | .ok cs => .text (String.ofList cs)
    | .error _ => .text ""
  | date => .foreign "date"
  | moment => .foreign "datetime"
  | list items => .list (toDocuments items)
  | set _ => .foreign "set"
  | mapping entries => .object (toFields entries)
  | enclosing isMapping => .foreign (if isMapping then "dict" else "list")

def toDocuments : List Value → List Document
  | [] => []
  | v :: rest => v.toDocument :: toDocuments rest

def toFields : List (Value × Value) → List (String × Document)
  | [] => []
  | (text name, value) :: rest => (name, value.toDocument) :: toFields rest
  | _ :: rest => toFields rest

end

end Value

end LadderMonitor.Yaml
