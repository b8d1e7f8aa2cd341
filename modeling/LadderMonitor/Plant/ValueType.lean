import LadderMonitor.Text.Blank

namespace LadderMonitor

inductive ValueType where
  | bit | byte | u8 | i8
  | int | u16 | i16 | word
  | dint | u32 | i32 | dword | real | float | f32
  | u64 | i64 | f64 | lword
deriving DecidableEq, Repr

namespace ValueType

/-- All value types, by family and width. -/
def all : List ValueType :=
  [bit, byte, u8, i8, int, u16, i16, word, dint, u32, i32, dword, real, float, f32, u64, i64, f64,
   lword]

def name : ValueType → String
  | bit => "bit" | byte => "byte" | u8 => "u8" | i8 => "i8"
  | int => "int" | u16 => "u16" | i16 => "i16" | word => "word"
  | dint => "dint" | u32 => "u32" | i32 => "i32" | dword => "dword"
  | real => "real" | float => "float" | f32 => "f32"
  | u64 => "u64" | i64 => "i64" | f64 => "f64" | lword => "lword"

/-- The bytes that a value takes; a bit takes the byte that it lies in. -/
def width : ValueType → Nat
  | bit | byte | u8 | i8 => 1
  | int | u16 | i16 | word => 2
  | dint | u32 | i32 | dword | real | float | f32 => 4
  | u64 | i64 | f64 | lword => 8

/-- Whether integers of the type are read in two's complement. -/
def isSigned : ValueType → Bool
  | i8 | int | i16 | dint | i32 | i64 => true
  | _ => false

def isReal : ValueType → Bool
  | real | float | f32 | f64 => true
  | _ => false

def ofName? (s : String) : Option ValueType := all.find? (·.name == s)

def olderNames : List (String × ValueType) :=
  [("bool", bit), ("sint", i8), ("usint", u8), ("uint", u16), ("udint", u32), ("lint", i64),
   ("ulint", u64), ("lreal", f64)]

/-- The type that a text names, in its present or an older spelling, blanks and case aside. -/
def parse? (s : String) : Option ValueType :=
  let key := Text.nameKey s
  (olderNames.lookup key).or (ofName? key)

theorem mem_all (t : ValueType) : t ∈ all := by cases t <;> decide

theorem width_pos (t : ValueType) : 0 < t.width := by cases t <;> decide

end ValueType

end LadderMonitor
