import KernelDispatch.Machine

/-!
# Stored columns and their handles

Columns are kept packed, one value after the other, and are served by their position in the table.
At host level a handle refers to the stored bytes themselves; at device level it owns a copy in
device memory, which dropping the handle frees.
-/

namespace KernelDispatch

structure StoredColumn where
  bytes : Bytes
  count : Nat
deriving DecidableEq, Repr

/-- A region after the values are stored in its chunks, one in each until either run out. -/
def packInto (w : Width) : Nat → List (BitVec w.bits) → Bytes → Bytes
  | chunks + 1, v :: values, region =>
    bytesOf w.bytes v ++ packInto w chunks values (region.drop w.bytes)
  | _, _, region => region

/-- A column of values of one width. They are packed into zeroed words, of which there is at least
one. -/
def StoredColumn.ofValues (w : Width) (values : List (BitVec w.bits)) : StoredColumn where
  bytes :=
    let numBytes := w.bytes * values.length
    let region : Bytes := List.replicate (8 * max 1 (slotsFor numBytes)) 0
    (packInto w (region.length / w.bytes) values region).take numBytes
  count := values.length

def unpack (w : Width) : Nat → Bytes → List (BitVec w.bits)
  | 0, _ => []
  | n + 1, bs => bitsAt w.bits (bs.take w.bytes) :: unpack w n (bs.drop w.bytes)

/-- Columns by position, and the device that copies go to. -/
structure ColumnStore where
  columns : List (Nat × StoredColumn) := []
  device : Option Device := none

/-- Where the bytes of a fetched column are. -/
inductive ColumnSite
  | host
  | device (d : Device) (address : Address)
deriving DecidableEq, Repr

/-- A handle on a column. -/
structure FetchedColumn where
  source : StoredColumn
  site : ColumnSite
deriving DecidableEq, Repr

namespace FetchedColumn

variable (c : FetchedColumn)

def count : Nat := c.source.count

def release (m : Machine) : Machine :=
  match c.site with
  | .host => m
  | .device d a => m.freeDevice d a

def load (m : Machine) : Except Failure Bytes :=
  match c.site with
  | .host => .ok c.source.bytes
  | .device d a => m.heap.copyFrom d a c.source.bytes.length

end FetchedColumn

namespace ColumnStore

variable (S : ColumnStore)

/-- The store with one more column. It replaces an earlier one at its position. -/
def register (index : Nat) (column : StoredColumn) : ColumnStore :=
  { S with columns := (index, column) :: S.columns }

/-- The column at a position, the last one registered there. -/
def find? (index : Nat) : Option StoredColumn :=
  (S.columns.find? (·.1 == index)).map (·.2)

@[simp] theorem find?_register_self (index : Nat) (column : StoredColumn) :
    (S.register index column).find? index = some column := by
  simp [register, find?]

theorem find?_register_of_ne {index other : Nat} (column : StoredColumn) (h : other ≠ index) :
    (S.register index column).find? other = S.find? other := by
  simp [register, find?, Ne.symm h]

/-- Copies a stored column to a device, into at least one word, which is freed if the copy fails. -/
def copyToDevice (column : StoredColumn) (d : Device) : Action Machine FetchedColumn := do
  let a ← Action.step (·.allocDevice d (max column.bytes.length slotBytes))
  (Action.attempt (·.copyTo d a column.bytes)).onFailure (·.freeDevice d a)
  return ⟨column, .device d a⟩

def place (column : StoredColumn) (level : MemoryLevel) (deviceId : DeviceId) :
    Action Machine FetchedColumn :=
  match level with
  | .host => return ⟨column, .host⟩
  | .device =>
    match S.device with
    | none => Action.fail .noFetchDevice
    | some d =>
      if d.id = deviceId then copyToDevice column d
      else Action.fail (.fetchDeviceMismatch deviceId d.id)

/-- Fetches a column. The fetch is counted if it succeeds. -/
def fetch (ref : ColumnRef) (level : MemoryLevel) (deviceId : DeviceId) :
    Action Machine FetchedColumn :=
  match S.find? ref.index with
  | none => Action.fail (.missingColumn ref)
  | some column => do
    let fetched ← S.place column level deviceId
    Action.update fun m => { m with fetches := m.fetches + 1 }
    return fetched

end ColumnStore

end KernelDispatch
