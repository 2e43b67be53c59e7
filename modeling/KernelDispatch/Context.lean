import KernelDispatch.Action
import KernelDispatch.ColumnStore

/-!
# Allocation contexts

A context owns the buffers of one invocation: host buffers, device allocations, and the handles of
fetched columns. Dropping it gives all of them back, each once. A scope is a context together with
the machine that it draws on.
-/

namespace KernelDispatch

/-- Where a context allocates. -/
inductive Site
  | host
  | device (d : Device)
deriving DecidableEq, Repr

def Site.deviceType : Site → DeviceType
  | .host => .cpu
  | .device _ => .gpu

inductive Allocation
  | host (buffer : HostBuffer)
  | device (address : Address) (numBytes : Nat)
  | borrowed (column : FetchedColumn)

/-- The buffers of one invocation in the order in which they were acquired. -/
structure Context where
  site : Site
  allocations : List Allocation := []

namespace Context

variable (c : Context)

def deviceType : DeviceType := c.site.deviceType

def memoryLevel : MemoryLevel := c.deviceType.memoryLevel

/-- The device it allocates on, which a context for the host has not. -/
def device : Except Failure Device :=
  match c.site with
  | .host => .error .noContextDevice
  | .device d => .ok d

def hold (a : Allocation) : Context := { c with allocations := c.allocations ++ [a] }

/-- The machine after one buffer of a context at `site` is dropped. -/
def drop (site : Site) (a : Allocation) (m : Machine) : Machine :=
  match a, site with
  | .host buffer, _ => m.release buffer.footprint
  | .device address _, .device d => m.freeDevice d address
  | .device _ _, .host => m
  | .borrowed column, _ => column.release m

def release (m : Machine) : Machine :=
  c.allocations.foldl (fun m a => drop c.site a m) m

end Context

/-- Where a kernel finds a buffer: the memory of a held allocation, or a device address. -/
inductive Location
  | held (position : Nat)
  | device (address : Address)
deriving DecidableEq, Repr

structure Buffer where
  location : Location
  size : Nat
deriving DecidableEq, Repr

/-- A context with the machine it draws on. -/
structure Scope where
  context : Context
  machine : Machine

namespace Scope

variable (s : Scope)

def hold (a : Allocation) : Scope := { s with context := s.context.hold a }

def onMachine {α : Type} (x : Action Machine α) : Action Scope α :=
  Action.on (·.machine) (fun machine s => { s with machine }) x

/-- A host buffer of `size` bytes that starts with `src`. It is held by the context. -/
def allocHost (size : Nat) (src : Bytes) : Action Scope HostBuffer := do
  let fresh ← onMachine (Machine.newBuffer size)
  let buffer := fresh.write 0 src
  Action.update (·.hold (.host buffer))
  return buffer

/-- Device memory of `size` bytes. It is held by the context. -/
def allocDevice (size : Nat) : Action Scope Address := do
  let d ← Action.check (·.context.device)
  let a ← onMachine (Action.step (·.allocDevice d size))
  Action.update (·.hold (.device a size))
  return a

/-- Device memory of `size` bytes that starts with `src`. -/
def allocDeviceWith (size : Nat) (src : Bytes) : Action Scope Address :=
  if size < src.length then Action.fail (.copyTooLong src.length size)
  else do
    let a ← allocDevice size
    let d ← Action.check (·.context.device)
    onMachine (Action.attempt (·.copyTo d a src))
    return a

/-- Moves a fetched column into the context. -/
def borrow (column : FetchedColumn) : Buffer × Scope :=
  let location :=
    match column.site with
    | .host => Location.held s.context.allocations.length
    | .device _ a => .device a
  (⟨location, column.source.bytes.length⟩, s.hold (.borrowed column))

def load (b : Buffer) : Except Failure Bytes :=
  match b.location with
  | .device a => s.machine.heap.peek a b.size
  | .held position =>
    match s.context.allocations[position]? with
    | some (.host buffer) => .ok (buffer.contents.take b.size)
    | some (.borrowed column) => .ok (column.source.bytes.take b.size)
    | _ => .ok []

def release : Machine := s.context.release s.machine

end Scope

end KernelDispatch
