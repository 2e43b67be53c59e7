import KernelDispatch.Literal

/-!
# Histories of memory operations

A workbench holds any number of reservations, host buffers, fetched columns and allocation contexts
on one machine, together with the device addresses handed out directly. Steps acquire, use and drop
them in any order. Handles are positions in the order of acquisition; a dropped handle leaves an
empty place. A step that names an empty place changes nothing. Addresses are opaque: only through a
pointer that was handed out can an allocation be accessed, and only the one that starts there.
-/

namespace KernelDispatch

/-- Something held directly, outside any context. -/
inductive Held
  | reservation (numBytes : Nat)
  | buffer (buffer : HostBuffer)
  | column (column : FetchedColumn)

def Held.release (m : Machine) : Held → Machine
  | reservation n => m.release n
  | buffer b => m.release b.footprint
  | column c => c.release m

/-- A pointer to device memory that was handed out directly. -/
structure Pointer where
  device : Device
  address : Address
  /-- Whether the allocation has not been freed yet. -/
  live : Bool := true
deriving DecidableEq, Repr

inductive MemoryStep
  | reserve (numBytes : Nat)
  | newBuffer (size : Nat)
  | write (held offset : Nat) (src : Bytes)
  | drop (held : Nat)
  | openContext (site : Site)
  | inspect (context : Nat)
  | dropContext (context : Nat)
  | allocHost (context size : Nat)
  | allocDevice (context size : Nat)
  | allocDeviceWith (context size : Nat) (src : Bytes)
  | literal (context : Nat) (value : Scalar)
  | literalBytes (context : Nat) (bytes : Bytes)
  | fetch (ref : ColumnRef) (level : MemoryLevel) (deviceId : DeviceId)
  /-- Moves a fetched column into a context. -/
  | borrow (context held : Nat)
  | alloc (device : Device) (size : Nat)
  | free (pointer offset : Nat)
  | copyTo (pointer offset : Nat) (src : Bytes)
  | copyFrom (pointer offset len : Nat)
  /-- Reads at a number that nobody was given as an address. -/
  | readAt (address : Address) (len : Nat)
  | synchronize (device : Device)
  | deviceId (device : Device)

inductive MemoryAnswer
  | done
  | granted
  | size (numBytes : Nat)
  | buffer (buffer : HostBuffer)
  | context (context : Context)
  | bytes (bytes : Bytes)
  | cell (bytes : Bytes)
  | column (count : Nat) (bytes : Bytes)
  | device (deviceId : DeviceId)
  /-- The step names an empty place. -/
  | nothingThere

/-- Everything acquired so far. -/
structure Workbench where
  store : ColumnStore := {}
  machine : Machine := {}
  held : List (Option Held) := []
  contexts : List (Option Context) := []
  pointers : List Pointer := []

namespace Workbench

variable (w : Workbench)

def keep (x : Held) : Workbench := { w with held := w.held ++ [some x] }

def held? (i : Nat) : Option Held := w.held[i]?.join

def context? (i : Nat) : Option Context := w.contexts[i]?.join

/-- Whether `len` bytes, `offset` bytes behind a pointer, lie within the allocation that starts
there. -/
def reaches (p : Pointer) (offset len : Nat) : Bool :=
  (w.machine.heap.sizeAt? p.device p.address).any (offset + len ≤ ·)

/-- The address of `len` bytes, `offset` bytes behind a pointer. Where allocations lie to one
another is not told, so a step out of the pointer's own allocation reaches nothing. -/
def reach (p : Pointer) (offset len : Nat) : Except Failure Address :=
  let a := p.address.advance offset
  if w.reaches p offset len then .ok a else .error (.accessOutsideAllocations a len)

def copyInto (p : Pointer) (offset : Nat) (src : Bytes) : Except Failure Machine := do
  w.machine.copyTo p.device (← w.reach p offset src.length) src

/-- The workbench after the allocation at a pointer's address is freed, whosever it is by now. -/
def free (i : Nat) (p : Pointer) : Workbench :=
  { w with
    machine := w.machine.freeDevice p.device p.address
    pointers := w.pointers.set i { p with live := false } }

def onMachine {α : Type} (x : Action Machine α) : Action Workbench α :=
  Action.on (·.machine) (fun machine w => { w with machine }) x

def within (i : Nat) (x : Action Scope MemoryAnswer) : Action Workbench MemoryAnswer := fun w =>
  match w.context? i with
  | none => (.ok .nothingThere, w)
  | some context =>
    let (answer, s) := x.run ⟨context, w.machine⟩
    (answer, { w with machine := s.machine, contexts := w.contexts.set i (some s.context) })

def showCell (x : Action Scope Buffer) : Action Scope MemoryAnswer := do
  let buffer ← x
  return .cell (← Action.check (·.load buffer))

def perform : MemoryStep → Action Workbench MemoryAnswer
  | .reserve n => do
    onMachine (Action.attempt (·.reserve n))
    Action.update (·.keep (.reservation n))
    return .size n
  | .newBuffer size => do
    let b ← onMachine (Machine.newBuffer size)
    Action.update (·.keep (.buffer b))
    return .buffer b
  | .write i offset src => fun w =>
    match w.held? i with
    | some (.buffer b) =>
      let b := b.write offset src
      (.ok (.buffer b), { w with held := w.held.set i (some (.buffer b)) })
    | _ => (.ok .nothingThere, w)
  | .drop i => fun w =>
    match w.held? i with
    | some x => (.ok .done, { w with machine := x.release w.machine, held := w.held.set i none })
    | none => (.ok .nothingThere, w)
  | .openContext site => fun w =>
    let context : Context := { site }
    (.ok (.context context), { w with contexts := w.contexts ++ [some context] })
  | .inspect i => fun w =>
    match w.context? i with
    | some context => (.ok (.context context), w)
    | none => (.ok .nothingThere, w)
  | .dropContext i => fun w =>
    match w.context? i with
    | some context =>
      (.ok .done,
        { w with machine := context.release w.machine, contexts := w.contexts.set i none })
    | none => (.ok .nothingThere, w)
  | .allocHost i size => within i do return .buffer (← Scope.allocHost size [])
  | .allocDevice i size => within i do
    let _ ← Scope.allocDevice size
    return .granted
  | .allocDeviceWith i size src => within i do
    let a ← Scope.allocDeviceWith size src
    return .bytes (← Action.check (·.load ⟨.device a, size⟩))
  | .literal i value => within i (showCell (Scope.literal value))
  | .literalBytes i bytes => within i (showCell (Scope.cell bytes))
  | .fetch ref level deviceId => do
    let store ← Action.read (·.store)
    let column ← onMachine (store.fetch ref level deviceId)
    Action.update (·.keep (.column column))
    return .column column.count (← Action.check fun w => column.load w.machine)
  | .borrow i j => fun w =>
    match w.held? j, w.context? i with
    | some (.column column), some context =>
      let s := (Scope.mk context w.machine).borrow column
      (.ok .granted, { w with
        held := w.held.set j none
        contexts := w.contexts.set i (some s.2.context) })
    | _, _ => (.ok .nothingThere, w)
  | .alloc d size => do
    let a ← onMachine (Action.step (·.allocDevice d size))
    Action.update fun w => { w with pointers := w.pointers ++ [⟨d, a, true⟩] }
    return .granted
  | .free i offset => fun w =>
    match w.pointers[i]? with
    | some p => (.ok .done, if offset = 0 then w.free i p else w)
    | none => (.ok .nothingThere, w)
  | .copyTo i offset src => fun w =>
    match w.pointers[i]? with
    | some p =>
      match w.copyInto p offset src with
      | .ok machine => (.ok .done, { w with machine })
      | .error e => (.error e, w)
    | none => (.ok .nothingThere, w)
  | .copyFrom i offset len => Action.check fun w =>
    match w.pointers[i]? with
    | some p => return .bytes (← w.machine.heap.copyFrom p.device (← w.reach p offset len) len)
    | none => .ok .nothingThere
  | .readAt a len => Action.fail (.accessOutsideAllocations a len)
  | .synchronize d => Action.check fun _ => do
    d.synchronize
    return .done
  | .deviceId d => return .device d.id

def step (s : MemoryStep) : Except Failure MemoryAnswer × Workbench := (perform s).run w

/-- Steps in order, with the answer to each and the workbench after it. -/
def run : List MemoryStep → Workbench → List (Except Failure MemoryAnswer × Workbench)
  | [], _ => []
  | s :: rest, w => let (answer, w) := w.step s; (answer, w) :: run rest w

end Workbench

end KernelDispatch
