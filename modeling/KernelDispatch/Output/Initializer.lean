import KernelDispatch.Capacity
import KernelDispatch.Output.Buffers

/-!
# Allocating output storage

The storage of a result is one region, column after column, with a word for each row. What is asked
for is checked before anything is reserved; the storage belongs to the result and outlives the
context.
-/

namespace KernelDispatch

/-- Bytes that a value takes up in an output buffer, and how many of them hold it. -/
structure SlotLayout where
  padded : Nat
  logical : Nat
deriving DecidableEq, Repr

structure OutputLayout where
  columnar : Bool
  slots : List SlotLayout
deriving DecidableEq, Repr

def OutputLayout.ofPlan (plan : Plan) : OutputLayout where
  columnar := true
  slots := plan.outputs.map fun _ => ⟨slotBytes, slotBytes⟩

/-- A request for output storage. Buffers and offsets come in one group for each fragment. -/
structure OutputRequest where
  layout : OutputLayout
  deviceId : DeviceId
  deviceType : DeviceType
  /-- Rows to make room for. -/
  rows : Nat
  inputGroups : List (List Buffer)
  offsetGroups : List (List Nat)
deriving DecidableEq, Repr

namespace OutputRequest

variable (q : OutputRequest)

/-- Bytes of the storage, if they are a size. The number of words must be one too. -/
def numBytes? : Option Nat := do
  let words ← asSize? (q.layout.slots.length * q.rows)
  asSize? (words * slotBytes)

def checkContext (c : Context) : Except Failure Unit :=
  if q.deviceType = c.deviceType then
    match q.deviceType with
    | .cpu => .ok ()
    | .gpu => do
      let d ← c.device
      if d.id = q.deviceId then .ok () else .error (.contextDeviceMismatch q.deviceId d.id)
  else .error (.contextTypeMismatch q.deviceType c.deviceType)

/-- Whether the layout is one that columns of words have. -/
def checkLayout (columns : Nat) : Except Failure Unit :=
  if q.layout.columnar then
    match q.layout.slots.find? (·.padded != slotBytes) with
    | some slot => .error (.unsupportedSlotWidth slot.padded)
    | none =>
      match q.layout.slots.find? fun slot => slot.logical == 0 || slot.padded < slot.logical with
      | some slot => .error (.invalidSlotWidth slot.logical slot.padded)
      | none =>
        if q.layout.slots.length = columns then .ok ()
        else .error (.layoutMismatch q.layout.slots.length columns)
  else .error .rowWiseOutput

def checkGroups : Except Failure Unit :=
  if q.inputGroups.length = 1 ∧ q.offsetGroups.length = 1 then .ok ()
  else .error (.notOneGroup q.inputGroups.length q.offsetGroups.length)

/-- Bytes to reserve for the output of a plan, or why it cannot be allocated. -/
def check (plan : Plan) (c : Context) : Except Failure Nat := do
  q.checkLayout plan.outputs.length
  q.checkGroups
  q.checkContext c
  match q.numBytes? with
  | some n => .ok n
  | none => .error (.outputTooLarge q.layout.slots.length q.rows)

/-- Allocates columns of words. The context itself holds nothing of it, and storage that is no use
for a result is given back. -/
def allocateColumns (plan : Plan) : Action Scope OutputBuffers := do
  let n ← Action.check fun s => q.check plan s.context
  let storage ← Scope.onMachine (Machine.newBuffer n)
  let result ← (Action.check fun _ => ResultSet.create plan.outputTypes storage q.rows).onFailure
    fun s => { s with machine := s.machine.release storage.footprint }
  return { result }

end OutputRequest

inductive Initializer
  /-- Columns of words. -/
  | columns
  /-- Columns of words with room for more rows than asked for. -/
  | roomier (extraRows : Nat)
  /-- Always gives up. -/
  | failing (message : String)
deriving DecidableEq, Repr

def Initializer.allocate (i : Initializer) (q : OutputRequest) (plan : Plan) :
    Action Scope OutputBuffers :=
  match i with
  | columns => q.allocateColumns plan
  | roomier extraRows => { q with rows := q.rows + extraRows }.allocateColumns plan
  | failing message => Action.fail (.initializerGaveUp message)

end KernelDispatch
