/-!
# Execution settings

Where a table function runs, the shape of a device launch, and how a device kernel's row count is
read.
-/

namespace KernelDispatch

/-- Identifier of a device. Two devices may share one. -/
abbrev DeviceId := UInt32

inductive DeviceType
  | cpu
  | gpu
deriving DecidableEq, Repr

inductive MemoryLevel
  | host
  | device
deriving DecidableEq, Repr

namespace DeviceType

/-- The level at which a kernel on this device reads its buffers. -/
def memoryLevel : DeviceType → MemoryLevel
  | .cpu => .host
  | .gpu => .device

def label : DeviceType → String
  | .cpu => "CPU"
  | .gpu => "GPU"

end DeviceType

def MemoryLevel.label : MemoryLevel → String
  | .host => "Host"
  | .device => "Device"

/-- Shape of a launch. Only the first dimension of grid and block can differ from one. -/
structure LaunchDims where
  gridSize : UInt32 := 1
  blockSize : UInt32 := 1
deriving DecidableEq, Repr

namespace LaunchDims

variable (D : LaunchDims)

def grid : List UInt32 := [D.gridSize, 1, 1]

def block : List UInt32 := [D.blockSize, 1, 1]

def threads : Nat := D.gridSize.toNat * D.blockSize.toNat

theorem threads_eq_foldr :
    D.threads = (D.grid ++ D.block).foldr (fun n product => n.toNat * product) 1 := by
  simp [threads, grid, block]

theorem threads_eq_zero_iff : D.threads = 0 ↔ D.gridSize = 0 ∨ D.blockSize = 0 := by
  rw [threads, Nat.mul_eq_zero, ← UInt32.toNat_inj, ← UInt32.toNat_inj]
  rfl

end LaunchDims

/-- What a row count cell that a device kernel leaves negative means. -/
inductive UnsetRowCount
  /-- The whole allocated capacity is output. -/
  | fallbackToCapacity
  /-- The invocation fails, as on the host. -/
  | strict
deriving DecidableEq, Repr

structure Config where
  /-- The device to run on. -/
  deviceId : DeviceId := 0
  launch : LaunchDims := {}
  unsetRowCount : UnsetRowCount := .fallbackToCapacity
  /-- What the device row count cell holds before the launch, as a signed number. -/
  sentinel : BitVec 64 := -1
deriving DecidableEq, Repr

end KernelDispatch
