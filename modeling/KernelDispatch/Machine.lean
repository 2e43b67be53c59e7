import KernelDispatch.Action
import KernelDispatch.Budget
import KernelDispatch.Device.Heap
import KernelDispatch.HostBuffer

/-!
# The machine

What all invocations share and change: the host memory budget, the memory of the devices, and the
number of columns fetched so far.
-/

namespace KernelDispatch

/-- Shared resources. -/
structure Machine where
  budget : Budget := {}
  heap : Heap := {}
  /-- Columns fetched successfully. -/
  fetches : Nat := 0

namespace Machine

variable (m : Machine)

def reserve (n : Nat) : Except Failure Machine := do
  let budget ← m.budget.reserve n
  return { m with budget }

def release (n : Nat) : Machine := { m with budget := m.budget.release n }

/-- A fresh host buffer of `size` bytes. Its whole words are reserved first; they are given back if
there cannot be such a buffer. -/
def newBuffer (size : Nat) : Action Machine HostBuffer := do
  let footprint := 8 * slotsFor size
  Action.attempt (·.reserve footprint)
  (Action.check fun _ => HostBuffer.fresh size).onFailure (·.release footprint)

def allocDevice (d : Device) (n : Nat) : Except Failure (Address × Machine) := do
  let (a, heap) ← m.heap.alloc d n
  return (a, { m with heap })

def freeDevice (d : Device) (a : Address) : Machine := { m with heap := m.heap.free d a }

def copyTo (d : Device) (a : Address) (src : Bytes) : Except Failure Machine := do
  let heap ← m.heap.copyTo d a src
  return { m with heap }

end Machine

end KernelDispatch
