import KernelDispatch.Config.Json
import KernelDispatch.DataType.Json
import KernelDispatch.Dispatcher.History
import KernelDispatch.Output.Session
import KernelDispatch.Workbench
import KernelDispatch.Proofs.Scalar
import KernelDispatch.Proofs.Capacity.Words
import KernelDispatch.Proofs.Capacity.Least
import KernelDispatch.Proofs.Capacity.Rounded
import KernelDispatch.Proofs.Capacity.Monotone
import KernelDispatch.Proofs.Action
import KernelDispatch.Proofs.Context.Ledger
import KernelDispatch.Proofs.Context.Acquire
import KernelDispatch.Proofs.Demand
import KernelDispatch.Proofs.Forecast
import KernelDispatch.Proofs.Inputs
import KernelDispatch.Proofs.Device.Blocks
import KernelDispatch.Proofs.Device.Launch
import KernelDispatch.Proofs.Output.Allocation
import KernelDispatch.Proofs.Output.Stores
import KernelDispatch.Proofs.Output.CopyBack
import KernelDispatch.Proofs.Output.Views
import KernelDispatch.Proofs.Output.Mirrored
import KernelDispatch.Proofs.Output.RoundTrip
import KernelDispatch.Proofs.Dispatcher.Account
import KernelDispatch.Proofs.Dispatcher.HostRun
import KernelDispatch.Proofs.Dispatcher.DeviceRun
import KernelDispatch.Proofs.Dispatcher.Execute
import KernelDispatch.Proofs.Dispatcher.Reconciliation
import KernelDispatch.Proofs.Dispatcher.NoLeak
import KernelDispatch.Proofs.Dispatcher.Agreement
import KernelDispatch.Proofs.Context.Demands
import KernelDispatch.Proofs.Inputs.Demands
import KernelDispatch.Proofs.Dispatcher.Checks
import KernelDispatch.Proofs.Dispatcher.Demands
import KernelDispatch.Proofs.Dispatcher.Follows
import KernelDispatch.Proofs.Inputs.Placement
import KernelDispatch.Proofs.Dispatcher.Conditions
import KernelDispatch.Proofs.Dispatcher.KernelRuns
import KernelDispatch.Proofs.Dispatcher.KernelEntry
import KernelDispatch.Proofs.Room
import KernelDispatch.Proofs.Dispatcher.Independence
import KernelDispatch.Proofs.Context.Estate
import KernelDispatch.Proofs.Dispatcher.Sentinel
import KernelDispatch.Proofs.Dispatcher.DeviceRefusals
import KernelDispatch.Proofs.Device.Search
import KernelDispatch.Proofs.Device.ByteArrays
import KernelDispatch.Proofs.Device.Refinement
import KernelDispatch.Proofs.Workbench.Places
import KernelDispatch.Proofs.Workbench.Performed
import KernelDispatch.Proofs.Workbench.Steps
import KernelDispatch.Proofs.Workbench.Inventory
import KernelDispatch.Proofs.Workbench.Changes
import KernelDispatch.Proofs.Workbench.Ownership
import KernelDispatch.Proofs.Workbench.Isolation
import KernelDispatch.Proofs.Output.Columns
import KernelDispatch.Proofs.Context.Cells
import KernelDispatch.Proofs.Inputs.Holdings
import KernelDispatch.Proofs.Inputs.FirstFault
import KernelDispatch.Proofs.Fit
import KernelDispatch.Proofs.Dispatcher.Admission
import KernelDispatch.Proofs.Context.Literals
import KernelDispatch.Proofs.Output.Attempts
import KernelDispatch.Proofs.Output.Ownership
import KernelDispatch.Proofs.Inputs.Fetches
import KernelDispatch.Proofs.Json.Numbers
import KernelDispatch.Proofs.Json.Spelling
import KernelDispatch.Proofs.Json.Accepted
import KernelDispatch.Proofs.Json.Compact
import KernelDispatch.Proofs.Json.Fields
import KernelDispatch.Proofs.Config.Json
import KernelDispatch.Proofs.DataType.Json
