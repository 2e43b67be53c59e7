import KernelDispatch.Context
import KernelDispatch.ResultSet

/-!
# Kernels

A kernel is known by what it does with what it is given: from the bytes of its inputs, the row
count, the words of its outputs and the content of the row count cell it computes stores into the
output columns, a row count, an error code and a status. On the host it works on the result's
storage; on a device it finds everything through the five addresses of its launch.
-/

namespace KernelDispatch

/-- What a kernel is given. -/
structure KernelView where
  /-- Bytes of the inputs in declaration order; eight for a constant. -/
  inputs : List Bytes
  /-- The row count, as a signed number. -/
  rows : Word
  /-- Words of the output columns, of the whole capacity. -/
  outputs : List (List Word)
  /-- The row count cell before the kernel runs. -/
  countCell : Word
deriving DecidableEq, Repr

/-- What a kernel does. -/
structure KernelEffect where
  /-- Stores into the outputs in order. -/
  stores : List Store := []
  /-- What the row count cell is set to, if it is. -/
  count : Option Word := none
  /-- What the error cell of a device launch is set to, if it is. -/
  errorCode : Option (BitVec 32) := none
  /-- The status of a host call. -/
  status : BitVec 32 := 0
deriving DecidableEq, Repr

abbrev KernelBody := KernelView → KernelEffect

structure DeviceKernel where
  name : String
  body : KernelBody
  /-- Whether the device runtime rejects every launch. -/
  refusesLaunch : Bool := false

/-- The code of a table function, for each kind of device that it was compiled for. -/
structure CompiledFunction where
  host : Option KernelBody := none
  device : Option DeviceKernel := none

namespace CompiledFunction

def hostBody (f : CompiledFunction) : Except Failure KernelBody :=
  match f.host with
  | some body => .ok body
  | none => .error (.notCompiledFor .cpu)

def deviceKernel (f : CompiledFunction) : Except Failure DeviceKernel :=
  match f.device with
  | some kernel => .ok kernel
  | none => .error (.notCompiledFor .gpu)

end CompiledFunction

structure KernelParams where
  /-- Cell that the kernel may write an error code to. -/
  errorCell : Address
  /-- Array of input addresses. -/
  inputs : Address
  /-- Cell with the input row count. -/
  rowCount : Address
  /-- Array of output column addresses. -/
  outputs : Address
  /-- Cell that the kernel writes its row count to. -/
  countCell : Address
deriving DecidableEq, Repr

/-- The five cells of a launch, in the order of the kernel's parameters. -/
def KernelParams.cells (p : KernelParams) : List Address :=
  [p.errorCell, p.inputs, p.rowCount, p.outputs, p.countCell]

/-- The extents that compiled code knows of: bytes of each input, output columns and their
capacity. -/
structure KernelShape where
  inputSizes : List Nat
  columns : Nat
  capacity : Nat
deriving DecidableEq, Repr

namespace KernelParams

variable (p : KernelParams) (shape : KernelShape) (h : Heap)

def entry (array : Address) (i : Nat) : Except Failure Address :=
  return ⟨← h.peekWord (array.advance (8 * i))⟩

def input (i size : Nat) : Except Failure Bytes := do
  h.peek (← entry h p.inputs i) size

def output (column : Nat) : Except Failure (List Word) := do
  return wordsOf (← h.peek (← entry h p.outputs column) (8 * shape.capacity))

def view : Except Failure KernelView := do
  let inputs ← shape.inputSizes.zipIdx.mapM fun (size, i) => p.input h i size
  let rows ← h.peekWord p.rowCount
  let outputs ← (List.range shape.columns).mapM fun column => p.output shape h column
  let countCell ← h.peekWord p.countCell
  return { inputs, rows, outputs, countCell }

/-- Stores a word or a part of one through the array of output columns. A store beside the columns
is lost. -/
def store (s : Store) : Except Failure Heap :=
  if s.column < shape.columns && s.row < shape.capacity && s.bytes.length ≤ slotBytes then do
    let column ← entry h p.outputs s.column
    h.poke (column.advance (8 * s.row)) s.bytes
  else .ok h

def storeAll : List Store → Heap → Except Failure Heap
  | [], h => .ok h
  | s :: rest, h => do storeAll rest (← p.store shape h s)

def apply (effect : KernelEffect) : Except Failure Heap := do
  let h ← p.storeAll shape effect.stores h
  let h ← match effect.count with
    | some count => h.poke p.countCell count.bytes
    | none => .ok h
  match effect.errorCode with
  | some code => h.poke p.errorCell (bytesOf 4 code)
  | none => .ok h

end KernelParams

/-- The addresses, extents and device memory that a device kernel starts from. -/
structure LaunchState where
  params : KernelParams
  shape : KernelShape
  memory : Heap

/-- One run of a kernel: what it was given and, on a device, where it found it. -/
structure KernelRun where
  view : KernelView
  launch : Option LaunchState := none

/-- Runs a device kernel once, whatever the number of threads. A launch without threads is refused;
a runtime that rejects launches does so first. -/
def DeviceKernel.launch (k : DeviceKernel) (deviceId : DeviceId) (dims : LaunchDims)
    (params : KernelParams) (shape : KernelShape) (h : Heap) :
    Except Failure (KernelView × Heap) := do
  if k.refusesLaunch then throw (.launchRefused k.name deviceId)
  if dims.threads = 0 then throw .launchWithoutThreads
  let view ← params.view shape h
  let h ← params.apply shape h (k.body view)
  return (view, h)

end KernelDispatch
