import KernelDispatch.Literal

/-!
# Materialised inputs

Every input expression becomes a buffer that the context holds: a column is fetched at the level of
the context, a constant gets a cell. All columns of an invocation have the same number of rows. The
first input that cannot be had ends the work; the buffers of the inputs before it stay with the
context.
-/

namespace KernelDispatch

/-- Buffers of the inputs in order, and the row count that all columns share; none if no input is a
column. -/
structure Inputs where
  buffers : List Buffer
  rows : Option Nat
deriving DecidableEq, Repr

namespace Inputs

variable (store : ColumnStore) (function : String) (deviceId : DeviceId)

/-- Whether a column of `count` rows goes with those before it. -/
def agrees (rows : Option Nat) (count : Nat) : Bool := rows.all (· == count)

/-- The buffer of a column for input `index`, with its row count. A column that does not go with
those before it is dropped at once. -/
def column (index : Nat) (rows : Option Nat) (ref : ColumnRef) : Action Scope (Buffer × Nat) := do
  let level ← Action.read (·.context.memoryLevel)
  let fetched ← Scope.onMachine (store.fetch ref level deviceId)
  if agrees rows fetched.count then
    let buffer ← Action.step fun s => .ok (s.borrow fetched)
    return (buffer, fetched.count)
  else
    Action.update fun s => { s with machine := fetched.release s.machine }
    Action.fail (.rowCountMismatch function index (rows.getD 0) fetched.count)

/-- The buffer of input `index`, with the row count of the columns so far. -/
def one (index : Nat) (rows : Option Nat) : InputExpr → Action Scope (Buffer × Option Nat)
  | .column ref => do
    let (buffer, count) ← column store function deviceId index rows ref
    return (buffer, some count)
  | .constant value => do
    let buffer ← Scope.literal value
    return (buffer, rows)
  | .unresolved description => Action.fail (.unresolvedInput function index description)

def allFrom : Nat → Option Nat → List InputExpr → Action Scope Inputs
  | _, rows, [] => return ⟨[], rows⟩
  | index, rows, input :: rest => do
    let (buffer, rows) ← one store function deviceId index rows input
    let others ← allFrom (index + 1) rows rest
    return ⟨buffer :: others.buffers, others.rows⟩

end Inputs

def Plan.materialize (plan : Plan) (store : ColumnStore) (deviceId : DeviceId) :
    Action Scope Inputs :=
  Inputs.allFrom store plan.name deviceId 0 none plan.inputs

end KernelDispatch
