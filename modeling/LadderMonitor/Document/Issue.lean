import LadderMonitor.Fault

namespace LadderMonitor

inductive PathStep where
  | field (name : String)
  | index (position : Nat)
deriving DecidableEq, Repr

/-- Why a value of a document is not accepted. -/
inductive Complaint where
  | missing
  | notModel (model : String)
  | notInteger
  | integerText
  | fraction
  | notFinite
  | belowZero
  | notPositive
  | notReal
  | realText
  | notTruthValue
  | truthText
  | notText
  | notList
  | notOneOf (names : List String)
  | rejected (reason : String)
deriving DecidableEq, Repr

namespace Complaint

def kind : Complaint → String
  | missing => "missing"
  | notModel _ => "model_type"
  | notInteger => "int_type"
  | integerText => "int_parsing"
  | fraction => "int_from_float"
  | notFinite => "finite_number"
  | belowZero => "greater_than_equal"
  | notPositive => "greater_than"
  | notReal => "float_type"
  | realText => "float_parsing"
  | notTruthValue => "bool_type"
  | truthText => "bool_parsing"
  | notText => "string_type"
  | notList => "list_type"
  | notOneOf _ => "enum"
  | rejected _ => "value_error"

def choices : List String → String
  | [] => ""
  | [last] => "'" ++ last ++ "'"
  | [first, last] => "'" ++ first ++ "' or '" ++ last ++ "'"
  | first :: rest => "'" ++ first ++ "', " ++ choices rest

def message : Complaint → String
  | missing => "Field required"
  | notModel model => "Input should be a valid dictionary or instance of " ++ model
  | notInteger => "Input should be a valid integer"
  | integerText => "Input should be a valid integer, unable to parse string as an integer"
  | fraction => "Input should be a valid integer, got a number with a fractional part"
  | notFinite => "Input should be a finite number"
  | belowZero => "Input should be greater than or equal to 0"
  | notPositive => "Input should be greater than 0"
  | notReal => "Input should be a valid number"
  | realText => "Input should be a valid number, unable to parse string as a number"
  | notTruthValue => "Input should be a valid boolean"
  | truthText => "Input should be a valid boolean, unable to interpret input"
  | notText => "Input should be a valid string"
  | notList => "Input should be a valid list"
  | notOneOf names => "Input should be " ++ choices names
  | rejected reason => "Value error, " ++ reason

end Complaint

/-- A complaint about the value at a place of a document. -/
structure Issue where
  path : List PathStep
  complaint : Complaint
deriving DecidableEq, Repr

end LadderMonitor
