import KernelDispatch.Kernel
import KernelDispatch.Output.Initializer

/-!
# Sessions on output buffers

Output buffers with the context of their invocation, used by hand: stores on the host and into the
mirror, mirroring, copying back, reading, and dropping each part. A step that needs a part that is
gone does nothing.
-/

namespace KernelDispatch

/-- Output storage while it is being written, or the bare result. -/
inductive OutputProduct
  | buffers (buffers : OutputBuffers)
  | result (result : ResultSet)

def OutputProduct.resultSet : OutputProduct → ResultSet
  | buffers o => o.result
  | result r => r

def OutputProduct.withResult (r : ResultSet) : OutputProduct → OutputProduct
  | buffers o => .buffers { o with result := r }
  | result _ => .result r

inductive OutputStep
  | info
  | setEntries (rows : Nat)
  | slots (column : Nat)
  | integers (column : Nat)
  | floats (column : Nat)
  | store (s : Store)
  | setUpMirror (dims : LaunchDims)
  | storeInMirror (column row : Nat) (word : Word)
  | copyBack (rows : Nat) (device : Device)
  | dropContext
  /-- The buffers become the bare result. -/
  | intoResult
  | drop

inductive OutputAnswer
  | done
  | info (result : ResultSet)
  | words (words : List Word)
  | integers (values : List Int)
  | floats (values : List (BitVec 64))
  /-- Bytes from the first column's device address to each column's. -/
  | distances (values : List Int)
  /-- What the step needs is gone. -/
  | gone

/-- The state of a session. -/
structure OutputSession where
  machine : Machine
  context : Option Context
  product : Option OutputProduct

namespace OutputSession

def allocated (plan : Plan) (request : OutputRequest) (context : Context) (m : Machine) :
    Except Failure OutputSession :=
  let (answer, s) := (request.allocateColumns plan).run ⟨context, m⟩
  answer.map fun o =>
    { machine := s.machine, context := some s.context, product := some (.buffers o) }

def reading (f : ResultSet → Except Failure OutputAnswer) : Action OutputSession OutputAnswer :=
  Action.check fun t =>
    match t.product with
    | some product => f product.resultSet
    | none => .ok .gone

/-- Distances of the entries of an array of addresses from the first entry. -/
def columnDistances (h : Heap) (array : Address) (columns : Nat) : Except Failure (List Int) := do
  let addresses ← (List.range columns).mapM (KernelParams.entry h array)
  return addresses.map fun a => (a.value : Int) - (addresses.headD .null).value

def mirrored (dims : LaunchDims) : Action OutputSession OutputAnswer := fun t =>
  match t.context, t.product with
  | some context, some (.buffers o) =>
    let (answer, s) := (o.setUpMirror dims).run ⟨context, t.machine⟩
    let t := { t with machine := s.machine, context := some s.context }
    match answer with
    | .ok (array, o) =>
      ((columnDistances s.machine.heap array o.result.columnCount).map .distances,
        { t with product := some (.buffers o) })
    | .error e => (.error e, t)
  | _, _ => (.ok .gone, t)

def storeInMirror (column row : Nat) (word : Word) (t : OutputSession) :
    Except Failure (OutputAnswer × OutputSession) :=
  match t.product with
  | some (.buffers { result, mirror := some mirror }) => do
    let a := mirror.storage.advance (result.columnOffset column + 8 * row)
    let heap ← t.machine.heap.poke a word.bytes
    return (.done, { t with machine := { t.machine with heap } })
  | _ => .ok (.gone, t)

def copyBack (rows : Nat) (d : Device) : Action OutputSession OutputAnswer := fun t =>
  match t.product with
  | some (.buffers o) =>
    let (answer, o) := (OutputBuffers.copyBack t.machine.heap d rows).run o
    (answer.map fun _ => .done, { t with product := some (.buffers o) })
  | _ => (.ok .gone, t)

def perform : OutputStep → Action OutputSession OutputAnswer
  | .info => reading fun r => .ok (.info r)
  | .slots column => reading fun r => .words <$> r.slots column
  | .integers column => reading fun r => .integers <$> r.integers column
  | .floats column => reading fun r => .floats <$> r.floats column
  | .setEntries rows => Action.step fun t =>
    match t.product with
    | some product => do
      let r ← product.resultSet.setEntries rows
      return (.done, { t with product := some (product.withResult r) })
    | none => .ok (.gone, t)
  | .store s => Action.step fun t =>
    match t.product with
    | some (.buffers o) =>
      .ok (.done, { t with product := some (.buffers { o with result := o.result.store s }) })
    | _ => .ok (.gone, t)
  | .setUpMirror dims => mirrored dims
  | .storeInMirror column row word => Action.step (storeInMirror column row word)
  | .copyBack rows d => copyBack rows d
  | .dropContext => Action.step fun t =>
    match t.context with
    | some context =>
      .ok (.done, { t with machine := context.release t.machine, context := none })
    | none => .ok (.gone, t)
  | .intoResult => Action.step fun t =>
    match t.product with
    | some (.buffers o) => .ok (.done, { t with product := some (.result o.result) })
    | _ => .ok (.gone, t)
  | .drop => Action.step fun t =>
    match t.product with
    | some product =>
      let footprint := product.resultSet.storage.footprint
      .ok (.done, { t with machine := t.machine.release footprint, product := none })
    | none => .ok (.gone, t)

/-- Steps in order, with the answer to each and the session after it. No step follows one that ended
the program. -/
def run : List OutputStep → OutputSession → List (Except Failure OutputAnswer × OutputSession)
  | [], _ => []
  | s :: rest, t =>
    let (answer, t) := (perform s).run t
    if endsProgram answer then [(answer, t)] else (answer, t) :: run rest t

end OutputSession

end KernelDispatch
