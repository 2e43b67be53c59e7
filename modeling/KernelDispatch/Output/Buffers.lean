import KernelDispatch.Context
import KernelDispatch.ResultSet

/-!
# Output buffers

The storage that a kernel writes its output to. For a device kernel it is mirrored in device memory
once: the mirror starts as a copy of the host storage, beside it stands an array with the address of
every column, and after the kernel the rows that count are copied back. A failed attempt to set the
mirror up leaves the buffers without one.
-/

namespace KernelDispatch

structure Mirror where
  /-- Copy of the column-major storage. -/
  storage : Address
  /-- Array of column addresses within the copy. -/
  columns : Address
  dims : LaunchDims
deriving DecidableEq, Repr

structure OutputBuffers where
  result : ResultSet
  mirror : Option Mirror := none

namespace OutputBuffers

variable (o : OutputBuffers)

/-- The array of column addresses of a mirror whose storage is at `storage`. -/
def columnArray (storage : Address) : Bytes :=
  (List.range o.result.columnCount).flatMap fun column =>
    (storage.advance (o.result.columnOffset column)).word.bytes

/-- Mirrors the storage on the device of the context, which owns the two allocations. -/
def setUpMirror (dims : LaunchDims) : Action Scope (Address × OutputBuffers) :=
  match o.mirror with
  | some _ => Action.fail .mirrorExists
  | none => do
    let storageBytes := o.result.storageBytes
    Action.check fun _ => o.result.checkView storageBytes
    let storage ← Scope.allocDeviceWith (max storageBytes slotBytes)
      (o.result.storage.padded.take storageBytes)
    let array := o.columnArray storage
    let columns ← Scope.allocDeviceWith (max array.length slotBytes) array
    return (columns, { o with mirror := some { storage, columns, dims } })

/-- Copies rows of the columns from `column` on back from the mirror. -/
def copyColumns (h : Heap) (d : Device) (storage : Address) (rows : Nat) :
    List Nat → Action ResultSet Unit
  | [] => return ()
  | column :: rest => do
    Action.step fun r => do
      r.checkView (r.columnOffset column + 8 * rows)
      let bytes ← h.copyFrom d (storage.advance (r.columnOffset column)) (8 * rows)
      return ((), r.withBytes (r.columnOffset column) bytes)
    copyColumns h d storage rows rest

/-- Copies the first `rows` rows of every column back from the mirror. -/
def copyBack (h : Heap) (d : Device) (rows : Nat) : Action OutputBuffers Unit := fun o =>
  match o.mirror with
  | none => (.error .noMirror, o)
  | some mirror =>
    if o.result.capacity < rows then (.error (.copyBackTooLong rows o.result.capacity), o)
    else
      let (answer, result) :=
        (copyColumns h d mirror.storage rows (List.range o.result.columnCount)).run o.result
      (answer, { o with result })

/-- The buffers after stores of a kernel on the host, in order. -/
def storeAll (stores : List Store) : OutputBuffers :=
  { o with result := stores.foldl ResultSet.store o.result }

def footprint : Nat := o.result.storage.footprint

end OutputBuffers

end KernelDispatch
