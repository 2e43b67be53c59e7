import KernelDispatch.Context

/-!
# Constants in cells

A kernel finds every constant in a cell of its own, one word wide, so that constants and columns
are passed alike. The value's bytes come first and the rest of the cell is zero.
-/

namespace KernelDispatch.Scope

/-- A cell that starts with these bytes, at the level of the context. -/
def cell (bytes : Bytes) : Action Scope Buffer :=
  if slotBytes < bytes.length then Action.fail (.literalTooLong bytes.length)
  else do
    let context ← Action.read (·.context)
    match context.site with
    | .host =>
      let _ ← allocHost slotBytes bytes
      return ⟨.held context.allocations.length, slotBytes⟩
    | .device _ =>
      let a ← allocDeviceWith slotBytes bytes
      return ⟨.device a, slotBytes⟩

/-- A cell for a constant. Signed integers and floats have one. -/
def literal (value : Scalar) : Action Scope Buffer :=
  match value.literalBytes? with
  | some bytes => cell bytes
  | none => Action.fail (.unsupportedLiteral value)

end KernelDispatch.Scope
