import KernelDispatch.BinaryFloat
import KernelDispatch.Bytes
import KernelDispatch.DataType

/-!
# Scalar values

A single value of a logical type. Integers and floats are kept as bit patterns. Two values are the
same if they have the same form and the same content, floats being compared by their values: a NaN
differs from itself and both zeros are the same.
-/

namespace KernelDispatch

inductive Scalar
  | null
  | boolean (b : Bool)
  | int (w : Width) (v : BitVec w.bits)
  | uint (w : Width) (v : BitVec w.bits)
  | float32 (v : BitVec 32)
  | float64 (v : BitVec 64)
  | utf8 (s : String)
  | binary (bs : Bytes)
  | list (items : List Scalar)

namespace Scalar

/-- The logical type of a value. A list has the type of its first item; an empty list does not
tell and counts as a list of nulls. -/
def datatype : Scalar → DataType
  | null => .null
  | boolean _ => .boolean
  | int w _ => .int w
  | uint w _ => .uint w
  | float32 _ => .float32
  | float64 _ => .float64
  | utf8 _ => .utf8
  | binary _ => .binary
  | list [] => .list .null
  | list (first :: _) => .list first.datatype

mutual

def text : Scalar → String
  | null => "NULL"
  | boolean b => if b then "true" else "false"
  | int _ v => toString v.toInt
  | uint _ v => toString v.toNat
  | float32 v => FloatFormat.single.text v.toNat
  | float64 v => FloatFormat.double.text v.toNat
  | utf8 s => "'" ++ s ++ "'"
  | binary bs => "\\x" ++ hexText bs
  | list [] => "[]"
  | list (first :: rest) => "[" ++ first.text ++ itemsText rest ++ "]"

def itemsText : List Scalar → String
  | [] => ""
  | item :: rest => ", " ++ item.text ++ itemsText rest

end

mutual

def same : Scalar → Scalar → Bool
  | null, null => true
  | boolean a, boolean b => a == b
  | int v a, int w b => v == w && a.toNat == b.toNat
  | uint v a, uint w b => v == w && a.toNat == b.toNat
  | float32 a, float32 b => FloatFormat.single.sameValue a.toNat b.toNat
  | float64 a, float64 b => FloatFormat.double.sameValue a.toNat b.toNat
  | utf8 a, utf8 b => a == b
  | binary a, binary b => a == b
  | list as, list bs => sameItems as bs
  | _, _ => false

/-- Whether two lists hold the same values in the same order. -/
def sameItems : List Scalar → List Scalar → Bool
  | [], [] => true
  | a :: as, b :: bs => a.same b && sameItems as bs
  | _, _ => false

end

/-- The stored form of a value that a kernel can take as a constant: signed integers and floats. -/
def literalBytes? : Scalar → Option Bytes
  | int w v => some (bytesOf w.bytes v)
  | float32 v => some (bytesOf 4 v)
  | float64 v => some (bytesOf 8 v)
  | _ => none

theorem length_of_literalBytes? {v : Scalar} {bs : Bytes} (h : v.literalBytes? = some bs) :
    bs.length ≤ 8 := by
  unfold literalBytes? at h
  split at h <;> simp at h <;> subst h <;> simp [Width.bytes_le_slotBytes]

end Scalar

end KernelDispatch
