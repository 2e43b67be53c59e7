import KernelDispatch.Failure
import KernelDispatch.HostBuffer

/-!
# Result sets

A result is a region of words, column after column, with `capacity` words for each. Only the first
`entries` rows of a column belong to the result; lowering and raising the count does not touch the
words. A column is read as words, as signed integers or as doubles.
-/

namespace KernelDispatch

/-- A word or a part of one that a kernel stores at a row of an output column. -/
structure Store where
  column : Nat
  row : Nat
  bytes : Bytes
deriving DecidableEq, Repr

def Store.word (column row : Nat) (w : Word) : Store := ⟨column, row, w.bytes⟩

/-- Stores the low half of a word and leaves the high half alone. -/
def Store.lowHalf (column row : Nat) (v : BitVec 32) : Store := ⟨column, row, bytesOf 4 v⟩

structure ResultSet where
  types : List DataType
  storage : HostBuffer
  capacity : Nat
  /-- Rows that belong to the result. -/
  entries : Nat
  covered : types.length * capacity ≤ storage.slotCount
  entries_le : entries ≤ capacity

namespace ResultSet

/-- A result over storage that has been allocated. All rows belong to it at first. -/
def create (types : List DataType) (storage : HostBuffer) (capacity : Nat) :
    Except Failure ResultSet :=
  if covered : types.length * capacity ≤ storage.slotCount then
    .ok ⟨types, storage, capacity, capacity, covered, Nat.le_refl _⟩
  else .error (.storageTooSmall storage.slotCount (types.length * capacity))

variable (r : ResultSet)

def columnCount : Nat := r.types.length

def columnOffset (column : Nat) : Nat := 8 * (column * r.capacity)

def storageBytes : Nat := 8 * (r.columnCount * r.capacity)

/-- Whether a view of the storage up to `stop` stays within the bytes that were asked for. The rest
of the last word is not part of any view in bytes. -/
def checkView (stop : Nat) : Except Failure Unit :=
  if stop ≤ r.storage.size then .ok () else .error (.viewOutOfRange stop r.storage.size)

/-- Sets the number of rows that belong to the result. A count above the capacity means that the
kernel wrote past the end. -/
def setEntries (rows : Nat) : Except Failure ResultSet :=
  if within : rows ≤ r.capacity then .ok { r with entries := rows, entries_le := within }
  else .error (.tooManyRows rows r.capacity)

def withBytes (offset : Nat) (src : Bytes) : ResultSet :=
  { r with storage := r.storage.write offset src, covered := by simpa using r.covered }

/-- Whether a store hits one of the words of the columns. -/
def admits (s : Store) : Bool :=
  s.column < r.columnCount && s.row < r.capacity && s.bytes.length ≤ slotBytes

/-- The result after a store. A store beside the columns is lost. -/
def store (s : Store) : ResultSet :=
  if r.admits s then r.withBytes (r.columnOffset s.column + 8 * s.row) s.bytes else r

def columnWords (column : Nat) : List Word :=
  wordsOf (slice r.storage.padded (r.columnOffset column) (8 * r.capacity))

def words : List (List Word) := (List.range r.columnCount).map r.columnWords

def columnType (column : Nat) : Except Failure DataType :=
  match r.types[column]? with
  | some t => .ok t
  | none => .error (.columnOutOfBounds column r.columnCount)

def slots (column : Nat) : Except Failure (List Word) := do
  let _ ← r.columnType column
  return (r.columnWords column).take r.entries

/-- A column of integers. Every word holds a number of 64 bits. -/
def integers (column : Nat) : Except Failure (List Int) := do
  let t ← r.columnType column
  if t.isInteger then
    return ((r.columnWords column).take r.entries).map (·.toInt)
  else throw (.notIntegers t)

/-- A column of floats as the bits of doubles. A single is read from the low half of its word. -/
def floats (column : Nat) : Except Failure (List (BitVec 64)) := do
  let t ← r.columnType column
  let words := (r.columnWords column).take r.entries
  match t with
  | .float64 => return words
  | .float32 => return words.map fun w => widenSingle (w.setWidth 32)
  | _ => throw (.notFloats t)

@[simp] theorem types_withBytes (offset : Nat) (src : Bytes) :
    (r.withBytes offset src).types = r.types := rfl

@[simp] theorem capacity_withBytes (offset : Nat) (src : Bytes) :
    (r.withBytes offset src).capacity = r.capacity := rfl

@[simp] theorem entries_withBytes (offset : Nat) (src : Bytes) :
    (r.withBytes offset src).entries = r.entries := rfl

@[simp] theorem types_store (s : Store) : (r.store s).types = r.types := by
  unfold store; split <;> rfl

@[simp] theorem capacity_store (s : Store) : (r.store s).capacity = r.capacity := by
  unfold store; split <;> rfl

@[simp] theorem entries_store (s : Store) : (r.store s).entries = r.entries := by
  unfold store; split <;> rfl

@[simp] theorem footprint_store (s : Store) :
    (r.store s).storage.footprint = r.storage.footprint := by
  unfold store; split <;> rfl

end ResultSet

end KernelDispatch
