import KernelDispatch.Scalar

/-!
# Planned invocations

What the planner hands over: the inputs in the order the kernel expects them, the output columns,
how output storage is sized, and the fragments of the table that is read.
-/

namespace KernelDispatch

structure ColumnRef where
  table : UInt32
  /-- Position of the column in its table. -/
  index : Nat
  datatype : DataType
deriving DecidableEq, Repr

/-- The text of a reference: table and position, with the type in parentheses. -/
def ColumnRef.text (c : ColumnRef) : String :=
  s!"#{c.table}.{c.index} ({c.datatype.name})"

/-- One input of a table function. -/
inductive InputExpr
  | column (ref : ColumnRef)
  | constant (value : Scalar)
  /-- An expression that planning has not reduced, kept as its description. -/
  | unresolved (description : String)

namespace InputExpr

def text : InputExpr → String
  | column ref => ref.text
  | constant value => value.text
  | unresolved description => description

/-- Whether two inputs are the same, constants being compared by value. -/
def same : InputExpr → InputExpr → Bool
  | column a, column b => a == b
  | constant a, constant b => a.same b
  | unresolved a, unresolved b => a == b
  | _, _ => false

end InputExpr

structure OutputColumn where
  name : String
  datatype : DataType
deriving DecidableEq, Repr

/-- How output storage is sized before the kernel runs. -/
inductive OutputSizing
  /-- Capacity is the input row count times a double, kept as its bits. -/
  | rowMultiplier (bits : BitVec 64)
deriving DecidableEq, Repr

structure Plan where
  /-- Name of the function in messages. -/
  name : String
  /-- Inputs in the order the kernel expects them. -/
  inputs : List InputExpr
  /-- Output columns, one buffer for each. -/
  outputs : List OutputColumn
  sizing : Option OutputSizing

def Plan.outputTypes (p : Plan) : List DataType := p.outputs.map (·.datatype)

structure Fragment where
  id : UInt32
  rows : Nat
deriving DecidableEq, Repr

structure Table where
  id : UInt32
  fragments : List Fragment
deriving DecidableEq, Repr

end KernelDispatch
