import KernelDispatch.Proofs.Action
import KernelDispatch.Proofs.Context.Ledger
import KernelDispatch.Proofs.Forecast

/-!
# Checks before a kernel

What stops an invocation before its kernel is either a refusal of the machine or one of the checks
collected here. A check never depends on the machine, is never reported as a fault of the kernel,
and is classified unless it concerns a fetch or the row count.
-/

namespace KernelDispatch

namespace Report

variable (text : String)

@[simp] theorem kind_new : (new text).kind = .other := rfl

@[simp] theorem kind_config : (config text).kind = .config := rfl

@[simp] theorem kind_internal : (internal text).kind = .internal := rfl

@[simp] theorem kind_missing : (missing text).kind = .internal := rfl

@[simp] theorem kind_notImplemented : (notImplemented text).kind = .config := rfl

@[simp] theorem kind_wrapping (source : Report) : (wrapping text source).kind = .other := rfl

end Report

namespace Failure

/-- The store of columns could not serve an input. -/
def isFetchFailure : Failure → Bool
  | missingColumn _ => true
  | noFetchDevice => true
  | fetchDeviceMismatch _ _ => true
  | _ => false

/-- Causes that a check finds before a kernel runs. -/
def precedesKernel : Failure → Bool
  | sentinelNotNegative _ => true
  | emptyLaunchShape _ => true
  | notCompiled => true
  | notCompiledFor _ => true
  | deviceRunsUnsupported _ => true
  | noFragments _ => true
  | severalFragments _ => true
  | noExecutionDevice _ _ => true
  | noColumnInput _ => true
  | unresolvedInput _ _ _ => true
  | rowCountMismatch _ _ _ _ => true
  | unsupportedLiteral _ => true
  | invalidMultiplier _ _ => true
  | capacityTooLarge _ _ => true
  | noOutputSizing _ => true
  | noContextDevice => true
  | rowWiseOutput => true
  | unsupportedSlotWidth _ => true
  | invalidSlotWidth _ _ => true
  | layoutMismatch _ _ => true
  | notOneGroup _ _ => true
  | contextTypeMismatch _ _ => true
  | contextDeviceMismatch _ _ => true
  | outputTooLarge _ _ => true
  | inputTooLong => true
  | launchFailed _ _ _ => true
  | capacityOverflow => true
  | e => e.isFetchFailure

def isAccess : Failure → Bool
  | accessOutsideAllocations _ _ => true
  | _ => false

variable {e : Failure}

theorem not_refusal_of_precedesKernel (h : e.precedesKernel = true) : e.isRefusal = false := by
  cases e <;> first | rfl | exact absurd h Bool.false_ne_true

theorem not_access_of_refusal (h : e.isRefusal = true) : e.isAccess = false := by
  cases e <;> first | rfl | exact absurd h Bool.false_ne_true

theorem not_access_of_precedesKernel (h : e.precedesKernel = true) : e.isAccess = false := by
  cases e <;> first | rfl | exact absurd h Bool.false_ne_true

theorem kind_of_precedesKernel (h : e.precedesKernel = true) :
    e.kind = .config ∨ e.kind = .internal ∨
      e.kind = .other ∧ (e.isFetchFailure = true ∨ e = .inputTooLong ∨ e = .capacityOverflow) := by
  cases e <;>
    first
    | exact absurd h Bool.false_ne_true
    | simp [kind, report, isFetchFailure]

theorem kind_of_isRefusal (h : e.isRefusal = true) : e.kind = .other := by
  cases e <;>
    first
    | exact absurd h Bool.false_ne_true
    | simp [kind, report]

end Failure

section Checks

variable {α β : Type}

/-- Whatever this fails with is found before a kernel runs. -/
def Checks (x : Except Failure α) : Prop := FailsOnly (·.precedesKernel = true) x

theorem checks_ok (a : α) : Checks (.ok a) := failsOnly_ok a

theorem checks_error {e : Failure} (h : e.precedesKernel = true) :
    Checks (.error e : Except Failure α) := failsOnly_error h

theorem Checks.bind {x : Except Failure α} {f : α → Except Failure β} (hx : Checks x)
    (hf : ∀ a, Checks (f a)) : Checks (x >>= f) := FailsOnly.bind hx fun a _ => hf a

end Checks

theorem Config.validate_checks (c : Config) : Checks c.validate := by
  unfold validate
  split_ifs
  · exact checks_error rfl
  · exact checks_error rfl
  · exact checks_ok ()

theorem Table.singleFragment_checks (t : Table) : Checks t.singleFragment := by
  unfold singleFragment
  split
  · exact checks_ok _
  · exact checks_error rfl
  · exact checks_error rfl

theorem CompiledFunction.hostBody_checks (f : CompiledFunction) : Checks f.hostBody := by
  unfold hostBody
  split
  · exact checks_ok _
  · exact checks_error rfl

theorem CompiledFunction.deviceKernel_checks (f : CompiledFunction) : Checks f.deviceKernel := by
  unfold deviceKernel
  split
  · exact checks_ok _
  · exact checks_error rfl

theorem kernelRows_checks (rows : ℕ) : Checks (kernelRows rows) := by
  unfold kernelRows
  split_ifs
  · exact checks_ok _
  · exact checks_error rfl

theorem Plan.rowCapacity_checks (plan : Plan) (rows : ℕ) : Checks (plan.rowCapacity rows) := by
  unfold rowCapacity
  split
  · exact checks_error rfl
  · split
    · split
      · exact checks_ok _
      · exact checks_error rfl
    · exact checks_error rfl

theorem ColumnStore.look_checks (S : ColumnStore) (ref : ColumnRef) (level : MemoryLevel)
    (deviceId : DeviceId) : Checks (S.look ref level deviceId) := by
  unfold look
  split
  · exact checks_error rfl
  · split
    · exact checks_ok _
    · split
      · exact checks_error rfl
      · split_ifs
        · exact checks_ok _
        · exact checks_error rfl

namespace Inputs

variable {store : ColumnStore} {function : String} {level : MemoryLevel} {deviceId : DeviceId}

theorem forecastOne_checks (index : ℕ) (rows : Option ℕ) (input : InputExpr) :
    Checks (forecastOne store function level deviceId index rows input) := by
  cases input with
  | column ref =>
    refine (store.look_checks ref level deviceId).bind fun column => ?_
    split_ifs
    · exact checks_ok _
    · exact checks_error rfl
  | constant value =>
    rw [forecastOne]
    split
    · exact checks_ok _
    · exact checks_error rfl
  | unresolved description => exact checks_error rfl

theorem forecastFrom_checks (inputs : List InputExpr) (index : ℕ) (rows : Option ℕ) :
    Checks (forecastFrom store function level deviceId index rows inputs) := by
  induction inputs generalizing index rows with
  | nil => exact checks_ok _
  | cons input rest ih =>
    refine (forecastOne_checks index rows input).bind fun one => ?_
    exact (ih (index + 1) one.2).bind fun others => checks_ok _

end Inputs

namespace OutputRequest

variable (q : OutputRequest)

theorem checkLayout_checks (columns : ℕ) : Checks (q.checkLayout columns) := by
  unfold checkLayout
  split
  · split
    · exact checks_error rfl
    · split
      · exact checks_error rfl
      · split
        · exact checks_ok ()
        · exact checks_error rfl
  · exact checks_error rfl

theorem checkGroups_checks : Checks q.checkGroups := by
  unfold checkGroups
  split_ifs
  · exact checks_ok ()
  · exact checks_error rfl

theorem checkContext_checks (c : Context) : Checks (q.checkContext c) := by
  unfold checkContext
  split_ifs
  · split
    · exact checks_ok ()
    · refine Checks.bind ?_ fun d => ?_
      · unfold Context.device
        split
        · exact checks_error rfl
        · exact checks_ok _
      · split_ifs
        · exact checks_ok ()
        · exact checks_error rfl
  · exact checks_error rfl

theorem check_checks (plan : Plan) (c : Context) : Checks (q.check plan c) := by
  refine (q.checkLayout_checks _).bind fun _ => q.checkGroups_checks.bind fun _ =>
    (q.checkContext_checks c).bind fun _ => ?_
  split
  · exact checks_ok _
  · exact checks_error rfl

end OutputRequest

theorem Plan.checkStorage_checks (plan : Plan) (capacity : ℕ) :
    Checks (plan.checkStorage capacity) := by
  unfold checkStorage
  split_ifs
  · exact checks_ok ()
  · exact checks_error rfl

/-- An initializer checks its request, or gives up with a message of its own. -/
theorem Initializer.requested_error {i : Initializer} {q : OutputRequest} {plan : Plan}
    {site : Site} {e : Failure} (h : i.requested q plan site = .error e) :
    e.precedesKernel = true ∨ ∃ message, i = .failing message ∧ e = .initializerGaveUp message := by
  cases i with
  | columns =>
    exact Or.inl ((OutputRequest.check_checks _ plan _).bind (fun _ => checks_ok _) e h)
  | roomier extraRows =>
    exact Or.inl ((OutputRequest.check_checks _ plan _).bind (fun _ => checks_ok _) e h)
  | failing message =>
    cases h
    exact Or.inr ⟨message, rfl, rfl⟩

theorem Initializer.forecast_error {i : Initializer} {q : OutputRequest} {plan : Plan} {site : Site}
    {e : Failure} (h : i.forecast q plan site = .error e) :
    e.precedesKernel = true ∨ ∃ message, i = .failing message ∧ e = .initializerGaveUp message := by
  rcases bind_eq_error_iff.mp h with hrequested | ⟨capacity, -, h⟩
  · exact requested_error hrequested
  · exact Or.inl ((plan.checkStorage_checks capacity).bind (fun _ => checks_ok _) e h)

namespace Dispatcher

variable (D : Dispatcher) (plan : Plan)

theorem prepare_checks (table : Table) (code : Option CompiledFunction) (target : DeviceType) :
    Checks (D.prepare plan table code target) := by
  refine D.config.validate_checks.bind fun _ => ?_
  cases code with
  | none => exact checks_error rfl
  | some f =>
    simp only
    split_ifs
    · exact checks_error rfl
    · refine table.singleFragment_checks.bind fun _ => Checks.bind ?_ fun _ => checks_ok _
      cases target with
      | cpu => exact checks_ok _
      | gpu =>
        unfold openContext
        cases D.device with
        | none => exact checks_error rfl
        | some d => exact checks_ok _

theorem forecastLaunch_checks (kernel : DeviceKernel) : Checks (D.forecastLaunch plan kernel) := by
  unfold forecastLaunch
  split_ifs
  · exact checks_error rfl
  · exact checks_error rfl
  · exact checks_ok ()

/-- A cause that is found by a check or with which the initializer gives up. -/
def StopsWith (e : Failure) : Prop :=
  e.precedesKernel = true ∨ ∃ message, D.initializer = .failing message ∧
    e = .initializerGaveUp message

variable {D plan} {site : Site} {e : Failure}

theorem forecastCapacity_error {rows : ℕ} (h : D.forecastCapacity plan site rows = .error e) :
    D.StopsWith e := by
  rcases bind_eq_error_iff.mp h with hcapacity | ⟨capacity, -, hforecast⟩
  · exact Or.inl (plan.rowCapacity_checks rows e hcapacity)
  · exact Initializer.forecast_error hforecast

theorem forecastRun_error {f : CompiledFunction} {inputs : List Bytes} {rows : ℕ}
    (h : D.forecastRun plan f inputs rows site = .error e) : D.StopsWith e := by
  cases site with
  | host =>
    rcases bind_eq_error_iff.mp h with hbody | ⟨body, -, h⟩
    · exact Or.inl (f.hostBody_checks e hbody)
    rcases bind_eq_error_iff.mp h with hcapacity | ⟨capacity, -, h⟩
    · exact forecastCapacity_error hcapacity
    rcases bind_eq_error_iff.mp h with hrows | ⟨told, -, h⟩
    · exact Or.inl (kernelRows_checks rows e hrows)
    · cases h
  | device d =>
    rcases bind_eq_error_iff.mp h with hkernel | ⟨kernel, -, h⟩
    · exact Or.inl (f.deviceKernel_checks e hkernel)
    rcases bind_eq_error_iff.mp h with hrows | ⟨told, -, h⟩
    · exact Or.inl (kernelRows_checks rows e hrows)
    rcases bind_eq_error_iff.mp h with hcapacity | ⟨capacity, -, h⟩
    · exact forecastCapacity_error hcapacity
    rcases bind_eq_error_iff.mp h with hlaunch | ⟨_, -, h⟩
    · exact Or.inl (D.forecastLaunch_checks plan kernel e hlaunch)
    · cases h

theorem forecast_error {f : CompiledFunction} {columns : ColumnStore}
    (h : D.forecast plan f columns site = .error e) : D.StopsWith e := by
  rcases bind_eq_error_iff.mp h with hinputs | ⟨⟨inputs, rows⟩, -, h⟩
  · exact Or.inl (Inputs.forecastFrom_checks _ _ _ e hinputs)
  · cases rows with
    | none =>
      cases h
      exact Or.inl rfl
    | some rows => exact forecastRun_error h

end Dispatcher

end KernelDispatch
