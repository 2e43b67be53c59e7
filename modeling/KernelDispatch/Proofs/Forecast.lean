import KernelDispatch.Dispatcher.Execute
import KernelDispatch.Proofs.Device.Blocks

/-!
# What an execution comes to if nothing is refused

A forecast follows an invocation up to its kernel without any memory: it says which bytes the kernel
is given for every input, how many rows, and how much room for output, or which check stops the
invocation before that. Executions are compared with it; they can differ only by a reservation or an
allocation that is refused.
-/

namespace KernelDispatch

/-- The column that a fetch serves when there is room for a copy. -/
def ColumnStore.look (S : ColumnStore) (ref : ColumnRef) (level : MemoryLevel)
    (deviceId : DeviceId) : Except Failure StoredColumn :=
  match S.find? ref.index with
  | none => .error (.missingColumn ref)
  | some column =>
    match level with
    | .host => .ok column
    | .device =>
      match S.device with
      | none => .error .noFetchDevice
      | some d =>
        if d.id = deviceId then .ok column else .error (.fetchDeviceMismatch deviceId d.id)

namespace Inputs

variable (store : ColumnStore) (function : String) (level : MemoryLevel) (deviceId : DeviceId)

/-- The bytes of input `index`, with the row count of the columns so far. -/
def forecastOne (index : ℕ) (rows : Option ℕ) : InputExpr → Except Failure (Bytes × Option ℕ)
  | .column ref => do
    let column ← store.look ref level deviceId
    if agrees rows column.count then return (column.bytes, some column.count)
    else throw (.rowCountMismatch function index (rows.getD 0) column.count)
  | .constant value =>
    match value.literalBytes? with
    | some bytes => .ok (zeroFilled slotBytes bytes, rows)
    | none => .error (.unsupportedLiteral value)
  | .unresolved description => .error (.unresolvedInput function index description)

/-- The bytes of the inputs from `index` on, with the row count of all columns. -/
def forecastFrom : ℕ → Option ℕ → List InputExpr → Except Failure (List Bytes × Option ℕ)
  | _, rows, [] => .ok ([], rows)
  | index, rows, input :: rest => do
    let (bytes, rows) ← forecastOne store function level deviceId index rows input
    let (others, rows) ← forecastFrom (index + 1) rows rest
    return (bytes :: others, rows)

end Inputs

/-- Rows that the initializer makes room for when it is asked for `rows`. -/
def Initializer.roomFor (i : Initializer) (rows : ℕ) : ℕ :=
  match i with
  | columns => rows
  | roomier extraRows => rows + extraRows
  | failing _ => 0

/-- Rows for which the initializer reserves storage, for a request of a context at `site`. -/
def Initializer.requested (i : Initializer) (q : OutputRequest) (plan : Plan) (site : Site) :
    Except Failure ℕ :=
  match i with
  | failing message => .error (.initializerGaveUp message)
  | _ => do
    let _ ← { q with rows := i.roomFor q.rows }.check plan { site }
    return i.roomFor q.rows

/-- Whether output of so many rows is no more than a single allocation can have. -/
def Plan.checkStorage (plan : Plan) (capacity : ℕ) : Except Failure Unit :=
  if 8 * (plan.outputs.length * capacity) < Word.signedBound then .ok ()
  else .error .capacityOverflow

/-- Rows of the output that the initializer allocates once its reservation is granted. -/
def Initializer.forecast (i : Initializer) (q : OutputRequest) (plan : Plan) (site : Site) :
    Except Failure ℕ := do
  let capacity ← i.requested q plan site
  plan.checkStorage capacity
  return capacity

/-- What the kernel of an invocation is given. -/
structure Forecast where
  inputs : List Bytes
  rows : ℕ
  /-- Rows of the allocated output. -/
  capacity : ℕ

theorem Config.threads_ne_zero {c : Config} (hvalid : c.validate = .ok ()) :
    c.launch.threads ≠ 0 := by
  intro hzero
  unfold validate at hvalid
  rw [if_pos (LaunchDims.threads_eq_zero_iff _ |>.mp hzero)] at hvalid
  split_ifs at hvalid

namespace Dispatcher

variable (D : Dispatcher) (plan : Plan)

def outputRequest (target : DeviceType) (capacity : ℕ) (inputs : List Buffer) : OutputRequest where
  layout := .ofPlan plan
  deviceId := D.config.deviceId
  deviceType := target
  rows := capacity
  inputGroups := [inputs]
  offsetGroups := [[0]]

/-- Rows for which output is reserved, for `rows` input rows. -/
def requestedCapacity (site : Site) (rows : ℕ) : Except Failure ℕ := do
  let capacity ← plan.rowCapacity rows
  D.initializer.requested (D.outputRequest plan site.deviceType capacity []) plan site

/-- Rows of the output for `rows` input rows. -/
def forecastCapacity (site : Site) (rows : ℕ) : Except Failure ℕ := do
  let capacity ← plan.rowCapacity rows
  D.initializer.forecast (D.outputRequest plan site.deviceType capacity []) plan site

/-- Whether the device runtime takes a launch of the kernel. -/
def forecastLaunch (kernel : DeviceKernel) : Except Failure Unit :=
  if kernel.refusesLaunch then
    .error (.launchFailed plan.name kernel.name (.launchRefused kernel.name D.config.deviceId))
  else if D.config.launch.threads = 0 then
    .error (.launchFailed plan.name kernel.name .launchWithoutThreads)
  else .ok ()

theorem forecastLaunch_eq_ok_iff {D : Dispatcher} {kernel : DeviceKernel}
    (hvalid : D.config.validate = .ok ()) :
    D.forecastLaunch plan kernel = .ok () ↔ kernel.refusesLaunch = false := by
  unfold forecastLaunch
  rw [if_neg (Config.threads_ne_zero hvalid)]
  cases kernel.refusesLaunch <;> simp

/-- What the kernel is given, for inputs of `rows` rows that are materialised. The row count is
converted before the output is allocated on a device, and after it on the host. -/
def forecastRun (code : CompiledFunction) (inputs : List Bytes) (rows : ℕ) :
    Site → Except Failure Forecast
  | .host => do
    let _ ← code.hostBody
    let capacity ← D.forecastCapacity plan .host rows
    let _ ← kernelRows rows
    return { inputs, rows, capacity }
  | .device d => do
    let kernel ← code.deviceKernel
    let _ ← kernelRows rows
    let capacity ← D.forecastCapacity plan (.device d) rows
    D.forecastLaunch plan kernel
    return { inputs, rows, capacity }

/-- What the kernel of an invocation at `site` is given, or the check that stops the invocation. -/
def forecast (code : CompiledFunction) (columns : ColumnStore) (site : Site) :
    Except Failure Forecast := do
  let (inputs, rows) ← Inputs.forecastFrom columns plan.name site.deviceType.memoryLevel
    D.config.deviceId 0 none plan.inputs
  match rows with
  | none => throw (.noColumnInput plan.name)
  | some rows => D.forecastRun plan code inputs rows site

end Dispatcher

end KernelDispatch
