import KernelDispatch.Address
import KernelDispatch.Config
import KernelDispatch.Plan
import KernelDispatch.Report

/-!
# Causes of failure

Everything that can go wrong while a table function is run, as a cause with the values that it
concerns. How a cause is classified and worded is said once, in `Failure.report`.
-/

namespace KernelDispatch

/-- Why an operation failed. -/
inductive Failure
  /-- The row count sentinel must be negative, or a kernel could not be seen to set the count. -/
  | sentinelNotNegative (sentinel : Word)
  /-- A launch dimension is zero. -/
  | emptyLaunchShape (dims : LaunchDims)
  /-- The function comes without compiled code. -/
  | notCompiled
  /-- The function has no code for the requested device. -/
  | notCompiledFor (target : DeviceType)
  /-- This build runs nothing on devices. -/
  | deviceRunsUnsupported (function : String)
  | noFragments (table : UInt32)
  | severalFragments (count : Nat)
  | noExecutionDevice (function : String) (deviceId : DeviceId)
  | noColumnInput (function : String)
  | unresolvedInput (function : String) (index : Nat) (description : String)
  | rowCountMismatch (function : String) (index expected got : Nat)
  | unsupportedLiteral (value : Scalar)
  | literalTooLong (numBytes : Nat)
  | invalidMultiplier (function : String) (multiplier : BitVec 64)
  | capacityTooLarge (rows : Nat) (multiplier : BitVec 64)
  | noOutputSizing (function : String)
  | memoryLimitExceeded (requested inUse limit : Nat)
  /-- A context for the host was asked for device memory. -/
  | noContextDevice
  | copyTooLong (copied allocated : Nat)
  | outOfDeviceMemory (deviceId : DeviceId) (numBytes : Nat)
  /-- The accessed stretch does not lie within one live allocation. -/
  | accessOutsideAllocations (address : Address) (len : Nat)
  | synchronizeFailed (deviceId : DeviceId)
  | missingColumn (ref : ColumnRef)
  | noFetchDevice
  | fetchDeviceMismatch (requested device : DeviceId)
  | rowWiseOutput
  | unsupportedSlotWidth (width : Nat)
  | invalidSlotWidth (logical padded : Nat)
  | layoutMismatch (slots outputs : Nat)
  | notOneGroup (inputGroups offsetGroups : Nat)
  | contextTypeMismatch (requested context : DeviceType)
  | contextDeviceMismatch (requested context : DeviceId)
  | outputTooLarge (columns rows : Nat)
  | storageTooSmall (slots needed : Nat)
  | columnOutOfBounds (index columns : Nat)
  | notIntegers (datatype : DataType)
  | notFloats (datatype : DataType)
  | tooManyRows (rows capacity : Nat)
  | mirrorExists
  | noMirror
  | copyBackTooLong (rows capacity : Nat)
  /-- The input has more rows than a kernel can be told. -/
  | inputTooLong
  | kernelStatus (function : String) (status : BitVec 32)
  | rowCountUnset (function : String) (reported : Word)
  | launchRefused (kernel : String) (deviceId : DeviceId)
  | launchWithoutThreads
  | launchFailed (function kernel : String) (cause : Failure)
  | deviceNotSynchronized (deviceId : DeviceId) (cause : Failure)
  /-- A buffer initializer gave up with a message of its own. -/
  | initializerGaveUp (message : String)
  /-- A view of a host buffer reaches beyond the bytes that were asked for. -/
  | viewOutOfRange (stop length : Nat)
  /-- Host memory beyond what a single allocation can have. -/
  | capacityOverflow

namespace Failure

def multiplierText (bits : BitVec 64) : String := FloatFormat.double.text bits.toNat

def report : Failure → Report
  | sentinelNotNegative sentinel =>
    Report.config "Row count sentinel must be negative"
      |>.withField "sentinel" (toString sentinel.toInt)
  | emptyLaunchShape dims =>
    Report.config "Launch dimensions must be non-zero"
      |>.withField "grid_size_x" (toString dims.gridSize)
      |>.withField "block_size_x" (toString dims.blockSize)
  | notCompiled => Report.missing "compilation context"
  | notCompiledFor target =>
    Report.internal s!"Table function was not compiled for {target.label}"
  | deviceRunsUnsupported function =>
    Report.internal "GPU execution support is not compiled in" |>.withField "function" function
  | noFragments table =>
    Report.internal "Table function input has no fragments"
      |>.withField "table_id" (toString table)
  | severalFragments count =>
    Report.notImplemented s!"table function execution over {count} fragments"
  | noExecutionDevice function deviceId =>
    Report.internal "Missing device allocator for GPU execution"
      |>.withField "function" function
      |>.withField "device_id" (toString deviceId)
  | noColumnInput function =>
    Report.config "Table function requires at least one column input"
      |>.withField "function" function
  | unresolvedInput function index description =>
    Report.config s!"Unsupported table function input expression: {description}"
      |>.withField "function" function
      |>.withField "input_idx" (toString index)
  | rowCountMismatch function index expected got =>
    Report.internal "Table function column inputs have mismatched row counts"
      |>.withField "function" function
      |>.withField "input_idx" (toString index)
      |>.withField "expected" (toString expected)
      |>.withField "got" (toString got)
  | unsupportedLiteral value =>
    Report.config s!"Literal value {value.text} is not yet supported."
      |>.withField "datatype" value.datatype.name
  | literalTooLong numBytes =>
    Report.internal "Literal value does not fit in a single cell"
      |>.withField "value_bytes" (toString numBytes)
      |>.withField "cell_bytes" (toString slotBytes)
  | invalidMultiplier function multiplier =>
    Report.config "Row multiplier must be a positive, finite number"
      |>.withField "function" function
      |>.withField "multiplier" (multiplierText multiplier)
  | capacityTooLarge rows multiplier =>
    Report.config "Output row capacity too large"
      |>.withField "input_row_count" (toString rows)
      |>.withField "multiplier" (multiplierText multiplier)
  | noOutputSizing function =>
    Report.config
        "Only row multiplier output buffer configuration is supported for table functions."
      |>.withField "function" function
  | memoryLimitExceeded requested inUse limit =>
    Report.new "Memory limit exceeded"
      |>.withField "requested" (toString requested)
      |>.withField "in_use" (toString inUse)
      |>.withField "limit" (toString limit)
  | noContextDevice =>
    Report.internal "Missing device allocator for device allocation"
      |>.withField "device_type" DeviceType.cpu.label
  | copyTooLong copied allocated =>
    Report.internal "Copy larger than device allocation"
      |>.withField "copy_bytes" (toString copied)
      |>.withField "alloc_bytes" (toString allocated)
  | outOfDeviceMemory deviceId numBytes =>
    Report.new "Out of device memory"
      |>.withField "device_id" (toString deviceId)
      |>.withField "num_bytes" (toString numBytes)
  | accessOutsideAllocations address len =>
    Report.new "Device access outside of any allocation"
      |>.withField "addr" address.text
      |>.withField "len" (toString len)
  | synchronizeFailed deviceId =>
    Report.new "Simulated synchronize failure" |>.withField "device_id" (toString deviceId)
  | missingColumn ref => Report.new "Missing column" |>.withField "column" ref.text
  | noFetchDevice => Report.new "Fetcher has no device"
  | fetchDeviceMismatch requested device =>
    Report.new "Fetcher device does not match requested device"
      |>.withField "requested" (toString requested)
      |>.withField "device" (toString device)
  | rowWiseOutput => Report.notImplemented "row-wise table function output"
  | unsupportedSlotWidth width =>
    Report.notImplemented s!"table function output slot of width {width}"
  | invalidSlotWidth logical padded =>
    Report.internal "Invalid output slot width"
      |>.withField "logical_width" (toString logical)
      |>.withField "padded_width" (toString padded)
  | layoutMismatch slots outputs =>
    Report.internal "Output layout does not match output columns"
      |>.withField "slots" (toString slots)
      |>.withField "outputs" (toString outputs)
  | notOneGroup inputGroups offsetGroups =>
    Report.internal "Expected a single fragment for table function output"
      |>.withField "input_groups" (toString inputGroups)
      |>.withField "offset_groups" (toString offsetGroups)
  | contextTypeMismatch requested context =>
    Report.internal "Allocation context is for a different device"
      |>.withField "requested" requested.label
      |>.withField "context" context.label
  | contextDeviceMismatch requested context =>
    Report.internal "Device allocator is for a different device"
      |>.withField "requested" (toString requested)
      |>.withField "allocator" (toString context)
  | outputTooLarge columns rows =>
    Report.config "Output allocation too large"
      |>.withField "columns" (toString columns)
      |>.withField "rows" (toString rows)
  | storageTooSmall slots needed =>
    Report.internal "Result storage too small"
      |>.withField "slots" (toString slots)
      |>.withField "needed" (toString needed)
  | columnOutOfBounds index columns =>
    Report.new "Column index out of bounds"
      |>.withField "idx" (toString index)
      |>.withField "num_columns" (toString columns)
  | notIntegers datatype => Report.new s!"Cannot read {datatype.name} column as integers"
  | notFloats datatype => Report.new s!"Cannot read {datatype.name} column as floats"
  | tooManyRows rows capacity =>
    Report.contractViolation "Table function output row count exceeds allocated capacity"
      |>.withField "row_count" (toString rows)
      |>.withField "capacity" (toString capacity)
  | mirrorExists => Report.internal "Device output buffers already set up"
  | noMirror => Report.missing "device output buffers"
  | copyBackTooLong rows capacity =>
    Report.contractViolation "Cannot copy more rows than were allocated"
      |>.withField "row_count" (toString rows)
      |>.withField "capacity" (toString capacity)
  | inputTooLong =>
    Report.wrapping "Input row count too large for kernel"
      (Report.new "number too large to fit in target type")
  | kernelStatus function status =>
    Report.new s!"Error executing table function: {status.toInt}"
      |>.withKind .execution
      |>.withField "function" function
      |>.withField "code" (toString status.toInt)
  | rowCountUnset function reported =>
    Report.contractViolation "Table function did not properly set output row count."
      |>.withField "function" function
      |>.withField "output_row_count" (toString reported.toInt)
  | launchRefused kernel deviceId =>
    Report.new "Simulated launch failure"
      |>.withField "kernel" kernel
      |>.withField "device_id" (toString deviceId)
  | launchWithoutThreads => Report.new "Empty launch"
  | launchFailed function kernel cause =>
    Report.wrapping "Failed to launch table function kernel" cause.report
      |>.withKind .internal
      |>.withField "function" function
      |>.withField "kernel" kernel
  | deviceNotSynchronized deviceId cause =>
    Report.wrapping "Device synchronization failed" cause.report
      |>.withKind .internal
      |>.withField "device_id" (toString deviceId)
  | initializerGaveUp message => Report.new message
  | viewOutOfRange stop length =>
    Report.new s!"range end index {stop} out of range for slice of length {length}"
  | capacityOverflow => Report.new "capacity overflow"

def kind (f : Failure) : ErrorKind := f.report.kind

def isFatal (f : Failure) : Bool := f.kind.isFatal

/-- Whether the cause ends the program on the spot, so that no caller gets to see its report. -/
def isAbort : Failure → Bool
  | viewOutOfRange _ _ => true
  | capacityOverflow => true
  | _ => false

end Failure

/-- Whether an answer is the end of the program. -/
def endsProgram {α : Type} : Except Failure α → Bool
  | .error e => e.isAbort
  | .ok _ => false

end KernelDispatch
