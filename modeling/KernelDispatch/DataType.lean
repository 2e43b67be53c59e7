/-!
# Logical types

The types of a table function's inputs and outputs, with the width that a value takes in a flat
buffer.
-/

namespace KernelDispatch

inductive Width
  | w8
  | w16
  | w32
  | w64
deriving DecidableEq, Repr

namespace Width

def bytes : Width → Nat
  | .w8 => 1
  | .w16 => 2
  | .w32 => 4
  | .w64 => 8

def bits (w : Width) : Nat := 8 * w.bytes

/-- The number of bits in decimal, as it stands in the name of a type. -/
def suffix : Width → String
  | .w8 => "8"
  | .w16 => "16"
  | .w32 => "32"
  | .w64 => "64"

theorem bytes_le_slotBytes (w : Width) : w.bytes ≤ 8 := by cases w <;> decide

end Width

/-- Logical types. All values of a list have the same type. -/
inductive DataType
  | null
  | boolean
  | int (width : Width)
  | uint (width : Width)
  | float32
  | float64
  | utf8
  | binary
  | list (element : DataType)
deriving DecidableEq, Repr

namespace DataType

/-- Bytes of one value in a flat buffer; none for types of variable length. -/
def physicalWidth : DataType → Option Nat
  | .null => some 0
  | .boolean => some 1
  | .int w => some w.bytes
  | .uint w => some w.bytes
  | .float32 => some 4
  | .float64 => some 8
  | .utf8 => none
  | .binary => none
  | .list _ => none

def isInteger : DataType → Bool
  | .int _ => true
  | .uint _ => true
  | _ => false

def isFloat : DataType → Bool
  | .float32 => true
  | .float64 => true
  | _ => false

/-- The name of a type; a list names the type of its values in brackets. -/
def name : DataType → String
  | .null => "Null"
  | .boolean => "Boolean"
  | .int w => "Int" ++ w.suffix
  | .uint w => "UInt" ++ w.suffix
  | .float32 => "Float32"
  | .float64 => "Float64"
  | .utf8 => "Utf8"
  | .binary => "Binary"
  | .list element => "List[" ++ element.name ++ "]"

/-- The types that have no parts. -/
def simple : List DataType :=
  [.null, .boolean, .int .w8, .int .w16, .int .w32, .int .w64, .uint .w8, .uint .w16, .uint .w32,
    .uint .w64, .float32, .float64, .utf8, .binary]

def ofName? (s : String) : Option DataType := simple.find? (·.name == s)

/-- Lists around the innermost type. -/
def depth : DataType → Nat
  | .list element => element.depth + 1
  | _ => 0

end DataType

end KernelDispatch
