import KernelDispatch.Dispatcher.HostRun
import KernelDispatch.Dispatcher.DeviceRun

/-!
# Executing table functions

An invocation materialises its inputs, sizes and allocates its output, runs the kernel, and
reconciles the row count that the kernel reports with what was allocated. Every intermediate buffer
is given back when it ends, whether it succeeds or not; the storage of a result belongs to the
result.
-/

namespace KernelDispatch

namespace Dispatcher

variable (D : Dispatcher)

/-- The context that an invocation on this kind of device starts with. -/
def openContext (plan : Plan) : DeviceType → Except Failure Context
  | .cpu => .ok { site := .host }
  | .gpu =>
    match D.device with
    | some d => .ok { site := .device d }
    | none => .error (.noExecutionDevice plan.name D.config.deviceId)

def prepare (plan : Plan) (table : Table) (code : Option CompiledFunction) (target : DeviceType) :
    Except Failure (CompiledFunction × Context) := do
  D.config.validate
  let some code := code | throw .notCompiled
  if target = .gpu ∧ D.deviceSupport = false then throw (.deviceRunsUnsupported plan.name)
  let _ ← table.singleFragment
  let context ← D.openContext plan target
  return (code, context)

def runIn (plan : Plan) (code : CompiledFunction) (columns : ColumnStore) (target : DeviceType) :
    Action Invocation ResultSet := do
  let inputs ← Invocation.onScope (plan.materialize columns D.config.deviceId)
  match inputs.rows with
  | none => Action.fail (.noColumnInput plan.name)
  | some rows =>
    match target with
    | .cpu => D.runOnHost plan inputs.buffers rows code
    | .gpu => D.runOnDevice plan inputs.buffers rows code

/-- What an execution leaves behind. -/
structure Outcome where
  result : Except Failure ResultSet
  machine : Machine
  requests : List RecordedRequest := []
  kernelRuns : List KernelRun := []

/-- Runs a table function over the single fragment of its input table. -/
def execute (plan : Plan) (table : Table) (code : Option CompiledFunction)
    (columns : ColumnStore) (target : DeviceType) (m : Machine) : Outcome :=
  match D.prepare plan table code target with
  | .error e => { result := .error e, machine := m }
  | .ok (code, context) =>
    let (result, i) := (D.runIn plan code columns target).run { scope := ⟨context, m⟩ }
    { result
      machine := i.scope.release
      requests := i.requests
      kernelRuns := i.kernelRuns }

end Dispatcher

def ResultSet.release (r : ResultSet) (m : Machine) : Machine := m.release r.storage.footprint

end KernelDispatch
