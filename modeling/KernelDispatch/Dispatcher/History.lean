import KernelDispatch.Dispatcher.Execute

/-!
# Sequences of executions

Executions follow one another on one machine. The result of an execution is dropped at once or kept,
and a kept result may be dropped at any later point.
-/

namespace KernelDispatch

structure Call where
  dispatcher : Dispatcher
  plan : Plan
  table : Table
  code : Option CompiledFunction
  target : DeviceType
  keep : Bool := false

inductive Event
  | call (c : Call)
  /-- Drops a kept result. -/
  | drop (position : Nat)

/-- The machine, and the results that were kept so far. A failed call that was to keep its result
and a dropped result leave an empty place. -/
structure History where
  columns : ColumnStore
  machine : Machine := {}
  kept : List (Option ResultSet) := []

namespace History

variable (h : History)

def call (c : Call) : Dispatcher.Outcome × History :=
  let outcome := c.dispatcher.execute c.plan c.table c.code h.columns c.target h.machine
  let result? := outcome.result.toOption
  if c.keep then
    (outcome, { h with machine := outcome.machine, kept := h.kept ++ [result?] })
  else
    let machine := match result? with
      | some result => result.release outcome.machine
      | none => outcome.machine
    (outcome, { h with machine })

def drop (position : Nat) : History :=
  match h.kept[position]? with
  | some (some result) =>
    { h with machine := result.release h.machine, kept := h.kept.set position none }
  | _ => h

def step : Event → Option Dispatcher.Outcome × History
  | .call c => let (outcome, h) := h.call c; (some outcome, h)
  | .drop position => (none, h.drop position)

/-- Events in order, with the outcome of each call and the history after each event. -/
def run : List Event → History → List (Option Dispatcher.Outcome × History)
  | [], _ => []
  | e :: rest, h => let (outcome, h) := h.step e; (outcome, h) :: run rest h

end History

end KernelDispatch
