import KernelDispatch.Dispatcher.Basic

/-!
# Running on the host

A kernel on the host is called in process on the storage of the result. Its row count cell starts
negative. A status other than zero is an execution error whatever else the kernel did; otherwise it
must have set the row count.
-/

namespace KernelDispatch.Dispatcher

variable (D : Dispatcher) (plan : Plan) (inputs : List Buffer) (rows : Nat)

def hostView (told : Word) (output : OutputBuffers) (i : Invocation) :
    Except Failure KernelView := do
  let bytes ← inputs.mapM i.scope.load
  return { inputs := bytes, rows := told, outputs := output.result.words, countCell := -1 }

def reconcileHost (output : OutputBuffers) (before : Word) (effect : KernelEffect) :
    Except Failure ResultSet :=
  if effect.status = 0 then
    let reported := effect.count.getD before
    if reported.toInt < 0 then .error (.rowCountUnset plan.name reported)
    else (output.storeAll effect.stores).result.setEntries reported.toNat
  else .error (.kernelStatus plan.name effect.status)

def callHost (body : KernelBody) (output : OutputBuffers) : Action Invocation ResultSet := do
  let told ← Action.check fun _ => kernelRows rows
  let view ← Action.check (hostView inputs told output)
  Action.update fun i => { i with kernelRuns := i.kernelRuns ++ [{ view }] }
  Action.check fun _ => reconcileHost plan output view.countCell (body view)

def runOnHost (code : CompiledFunction) : Action Invocation ResultSet := do
  let body ← Action.check fun _ => code.hostBody
  let output ← D.allocateOutput plan inputs rows .cpu
  (callHost plan inputs rows body output).onFailure (Invocation.releaseOutput output.footprint)

end KernelDispatch.Dispatcher
