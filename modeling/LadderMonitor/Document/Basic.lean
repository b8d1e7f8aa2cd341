import LadderMonitor.Numeric.Double

namespace LadderMonitor

/-- A value of a document. An object keeps its entries in the order of the document; its keys are
distinct. -/
inductive Document where
  | null
  | bool (value : Bool)
  | int (value : Int)
  | real (value : Double)
  | text (value : String)
  | list (items : List Document)
  | object (entries : List (String × Document))
  /-- A value of a kind that no field accepts, such as a date. -/
  | foreign (kind : String)
deriving Inhabited

namespace Document

/-- What kind of value a message says this is. -/
def kind : Document → String
  | null => "NoneType"
  | bool _ => "bool"
  | int _ => "int"
  | real _ => "float"
  | text _ => "str"
  | list _ => "list"
  | object _ => "dict"
  | foreign kind => kind

/-- Whether a value counts as present: zeros and empty values do not. -/
def truth : Document → Bool
  | null => false
  | bool value => value
  | int value => value != 0
  | real value => !value.isZero
  | text value => !value.isEmpty
  | list items => !items.isEmpty
  | object entries => !entries.isEmpty
  | foreign _ => true

def get? (key : String) : Document → Option Document
  | object entries => entries.lookup key
  | _ => none

end Document

end LadderMonitor
