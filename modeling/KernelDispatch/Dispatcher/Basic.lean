import KernelDispatch.Inputs
import KernelDispatch.Kernel
import KernelDispatch.Output.Initializer

/-!
# Dispatchers and invocations

A dispatcher holds the settings under which table functions run. An invocation is the state of one
run: the context that owns its intermediate buffers, with the machine, and a record of the output
that was asked for and of what the kernel was given.
-/

namespace KernelDispatch

def Config.validate (c : Config) : Except Failure Unit :=
  if 0 ≤ c.sentinel.toInt then .error (.sentinelNotNegative c.sentinel)
  else if c.launch.gridSize = 0 ∨ c.launch.blockSize = 0 then .error (.emptyLaunchShape c.launch)
  else .ok ()

def Table.singleFragment (t : Table) : Except Failure Fragment :=
  match t.fragments with
  | [fragment] => .ok fragment
  | [] => .error (.noFragments t.id)
  | several => .error (.severalFragments several.length)

/-- A request for output storage with the number of buffers that the context held by then. -/
structure RecordedRequest where
  request : OutputRequest
  heldBuffers : Nat
deriving DecidableEq, Repr

/-- An invocation under way: its context with the machine, and what it has done so far. -/
structure Invocation where
  scope : Scope
  /-- Requests for output storage. -/
  requests : List RecordedRequest := []
  /-- Runs of the kernel. -/
  kernelRuns : List KernelRun := []

namespace Invocation

/-- The invocation after the storage of its output, of `footprint` bytes, is given back. -/
def releaseOutput (footprint : Nat) (i : Invocation) : Invocation :=
  { i with scope := { i.scope with machine := i.scope.machine.release footprint } }

def onScope {α : Type} (x : Action Scope α) : Action Invocation α :=
  Action.on (·.scope) (fun s i => { i with scope := s }) x

end Invocation

def kernelRows (rows : Nat) : Except Failure Word :=
  if rows < Word.signedBound then .ok (BitVec.ofNat 64 rows) else .error .inputTooLong

/-- A dispatcher: its settings, the device it was given, how it allocates output, and whether it
can run on devices at all. -/
structure Dispatcher where
  config : Config := {}
  device : Option Device := none
  initializer : Initializer := .columns
  deviceSupport : Bool := true

namespace Dispatcher

/-- Sizes and allocates the output for materialised inputs of `rows` rows. -/
def allocateOutput (D : Dispatcher) (plan : Plan) (inputs : List Buffer) (rows : Nat)
    (target : DeviceType) : Action Invocation OutputBuffers := do
  let capacity ← Action.check fun _ => plan.rowCapacity rows
  let request : OutputRequest :=
    { layout := .ofPlan plan
      deviceId := D.config.deviceId
      deviceType := target
      rows := capacity
      inputGroups := [inputs]
      offsetGroups := [[0]] }
  Action.update fun i =>
    { i with requests := i.requests ++ [⟨request, i.scope.context.allocations.length⟩] }
  Invocation.onScope (D.initializer.allocate request plan)

end Dispatcher

end KernelDispatch
