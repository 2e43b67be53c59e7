import KernelDispatch.Dispatcher.Basic

/-!
# Running on a device

The inputs already are in device memory. The dispatcher stages the array of their addresses, the
row count, an error cell and a row count cell that holds the sentinel, mirrors the output, launches
the kernel and waits for the device. Then it reads the row count cell and copies the rows that
count back. The error cell is not read.
-/

namespace KernelDispatch.Dispatcher

variable (D : Dispatcher) (plan : Plan) (inputs : List Buffer) (rows : Nat)

/-- The row count that a device kernel has reported, a negative one being read as the settings
say. -/
def reportedRows (capacity : Nat) (reported : Word) : Except Failure Nat :=
  if reported.toInt < 0 then
    match D.config.unsetRowCount with
    | .fallbackToCapacity => .ok capacity
    | .strict => .error (.rowCountUnset plan.name reported)
  else .ok reported.toNat

def launch (kernel : DeviceKernel) (params : KernelParams) (shape : KernelShape) :
    Action Invocation Unit := fun i =>
  let memory := i.scope.machine.heap
  match kernel.launch D.config.deviceId D.config.launch params shape memory with
  | .ok (view, heap) =>
    let machine := { i.scope.machine with heap }
    (.ok (), { i with
      scope := { i.scope with machine }
      kernelRuns := i.kernelRuns ++ [{ view, launch := some { params, shape, memory } }] })
  | .error e => (.error (.launchFailed plan.name kernel.name e), i)

def synchronize (device : Device) : Except Failure Unit :=
  match device.synchronize with
  | .ok () => .ok ()
  | .error e => .error (.deviceNotSynchronized D.config.deviceId e)

/-- Reads the row count of a device kernel and copies its rows back. -/
def reconcileDevice (device : Device) (output : OutputBuffers) (countCell : Address)
    (h : Heap) : Except Failure ResultSet := do
  let reported := Word.ofBytes (← h.copyFrom device countCell 8)
  let count ← D.reportedRows plan output.result.capacity reported
  let result ← output.result.setEntries count
  let (answer, output) := (OutputBuffers.copyBack h device count).run { output with result }
  answer
  return output.result

/-- Mirrors the output, launches the kernel, and reads back what it has done. -/
def runStaged (kernel : DeviceKernel) (device : Device) (output : OutputBuffers)
    (inputArray rowCount errorCell : Address) : Action Invocation ResultSet := do
  let countCell ← Invocation.onScope <|
    Scope.allocDeviceWith slotBytes (Word.bytes D.config.sentinel)
  let (outputArray, output) ← Invocation.onScope (output.setUpMirror D.config.launch)
  let params : KernelParams :=
    { errorCell, inputs := inputArray, rowCount, outputs := outputArray, countCell }
  let shape : KernelShape :=
    { inputSizes := inputs.map (·.size)
      columns := output.result.columnCount
      capacity := output.result.capacity }
  D.launch plan kernel params shape
  Action.check fun _ => D.synchronize device
  Action.check fun i => D.reconcileDevice plan device output countCell i.scope.machine.heap

def inputArrayBytes : Bytes :=
  inputs.flatMap fun b =>
    match b.location with
    | .device a => a.word.bytes
    | .held _ => Address.null.word.bytes

/-- Runs a table function on a device. The inputs already are in device memory. -/
def runOnDevice (code : CompiledFunction) : Action Invocation ResultSet := do
  let kernel ← Action.check fun _ => code.deviceKernel
  let device ← Action.check fun i => i.scope.context.device
  let array := inputArrayBytes inputs
  let inputArray ← Invocation.onScope <|
    Scope.allocDeviceWith (max array.length slotBytes) array
  let told ← Action.check fun _ => kernelRows rows
  let rowCount ← Invocation.onScope (Scope.allocDeviceWith slotBytes told.bytes)
  let errorCell ← Invocation.onScope (Scope.allocDevice slotBytes)
  let output ← D.allocateOutput plan inputs rows .gpu
  (D.runStaged plan inputs kernel device output inputArray rowCount errorCell).onFailure
    (Invocation.releaseOutput output.footprint)

end KernelDispatch.Dispatcher
