import KernelDispatch.Proofs.Dispatcher.KernelRuns

/-!
# What a device refuses, as a caller sees it

Of what an invocation asks of its device, an allocation, the launch and the wait can be refused;
copies stay within what the invocation has allocated and are always done. A refused launch and a
wait that fails are wrapped as internal errors. A refused allocation is passed on as it is,
unclassified, so a caller is not told that the device has failed.
-/

namespace KernelDispatch

/-- Something that a device can refuse to an invocation. -/
inductive DeviceRefusal
  | allocation (numBytes : ℕ)
  | launch
  | wait

def DeviceRefusal.kind : DeviceRefusal → ErrorKind
  | allocation _ => .other
  | launch => .internal
  | wait => .internal

def DeviceKernel.taken (k : DeviceKernel) : DeviceKernel := { k with refusesLaunch := false }

namespace Machine

variable {m m' : Machine} {ds rest : List Demand} {d : Device} {n : ℕ} {e : Failure}

theorem grant_device_error (h : m.grant (.device d n) = .error e) :
    e = .outOfDeviceMemory d.id n := by
  rw [grant_device] at h
  split_ifs at h <;> cases h <;> rfl

/-- The first demand that is refused decides how a list of them is answered. -/
theorem grantAll_of_first_refused (hgranted : grantAll ds m = .ok m')
    (hrefused : m'.grant (.device d n) = .error e) :
    grantAll (ds ++ .device d n :: rest) m = .error (.outOfDeviceMemory d.id n) := by
  have hcause := grant_device_error hrefused
  subst hcause
  rw [grantAll_append]
  refine bind_eq_error_iff.mpr (Or.inr ⟨m', hgranted, ?_⟩)
  exact bind_eq_error_iff.mpr (Or.inl hrefused)

end Machine

namespace Dispatcher

/-- The device is the first to refuse something to an invocation: everything that is checked or
asked for before it passes and is granted. -/
def Refuses (D : Dispatcher) (plan : Plan) (f : CompiledFunction) (columns : ColumnStore)
    (d : Device) (m : Machine) : DeviceRefusal → Prop
  | .allocation n => ∃ granted rest m' e,
      D.demands plan f columns (.device d) = granted ++ .device d n :: rest ∧
      Machine.grantAll granted m = .ok m' ∧ m'.grant (.device d n) = .error e
  | .launch => ∃ m' kernel given,
      Machine.grantAll (D.demands plan f columns (.device d)) m = .ok m' ∧
      f.device = some kernel ∧ kernel.refusesLaunch = true ∧
      D.forecast plan { f with device := some kernel.taken } columns (.device d) = .ok given
  | .wait => ∃ m' given,
      Machine.grantAll (D.demands plan f columns (.device d)) m = .ok m' ∧
      D.forecast plan f columns (.device d) = .ok given ∧ d.failsSync = true

variable {D : Dispatcher} {plan : Plan} {table : Table} {f : CompiledFunction}
  {code : Option CompiledFunction} {columns : ColumnStore} {target : DeviceType} {d : Device}
  {m : Machine} {context : Context} {e : Failure}

theorem forecast_of_launch_refused {kernel : DeviceKernel} {given : Forecast}
    (hkernel : f.device = some kernel) (hrefuses : kernel.refusesLaunch = true)
    (h : D.forecast plan { f with device := some kernel.taken } columns (.device d) = .ok given) :
    D.forecast plan f columns (.device d) = .error (.launchFailed plan.name kernel.name
      (.launchRefused kernel.name D.config.deviceId)) := by
  obtain ⟨bytes, rows, hinputs, hrun⟩ := forecast_eq_ok_iff.mp h
  obtain ⟨_, -, hrun⟩ := bind_eq_ok_iff.mp hrun
  obtain ⟨told, htold, hrun⟩ := bind_eq_ok_iff.mp hrun
  obtain ⟨capacity, hcapacity, -⟩ := bind_eq_ok_iff.mp hrun
  have hlaunch : D.forecastLaunch plan kernel = .error (.launchFailed plan.name kernel.name
      (.launchRefused kernel.name D.config.deviceId)) := if_pos hrefuses
  have hcode : f.deviceKernel = .ok kernel := CompiledFunction.deviceKernel_eq_ok_iff.mpr hkernel
  refine bind_eq_error_iff.mpr (Or.inr ⟨_, hinputs, ?_⟩)
  refine bind_eq_error_iff.mpr (Or.inr ⟨kernel, hcode, ?_⟩)
  refine bind_eq_error_iff.mpr (Or.inr ⟨told, htold, ?_⟩)
  refine bind_eq_error_iff.mpr (Or.inr ⟨capacity, hcapacity, ?_⟩)
  exact bind_eq_error_iff.mpr (Or.inl hlaunch)

theorem settle_of_wait_refused {capacity : ℕ} {before : Word} {effect : KernelEffect}
    (h : d.failsSync = true) :
    D.settle plan capacity before effect (.device d) =
      .error (.deviceNotSynchronized D.config.deviceId (.synchronizeFailed d.id)) := by
  refine bind_eq_error_iff.mpr (Or.inl ?_)
  simp [synchronize, Device.synchronize, h]

/-- No copy to or from a device is refused to an execution. -/
theorem execute_not_access (h : (D.execute plan table code columns target m).result = .error e) :
    e.isAccess = false := by
  cases hprepare : D.prepare plan table code target with
  | error e' =>
    rw [execute_of_prepare_error hprepare] at h
    cases h
    exact Failure.not_access_of_precedesKernel (D.prepare_checks plan table code target _ hprepare)
  | ok fc =>
    obtain ⟨f, context⟩ := fc
    rcases (execute_account columns m hprepare).2.2 with ⟨e', he', -, hcause⟩
      | ⟨given, effect, hsettles⟩
    · obtain rfl : e' = e := Except.error.inj (he'.symm.trans h)
      rcases hcause with hrefusal | hforecast
      · exact Failure.not_access_of_refusal hrefusal
      · rcases forecast_error hforecast with hcheck | ⟨message, -, rfl⟩
        · exact Failure.not_access_of_precedesKernel hcheck
        · rfl
    · have hresult := hsettles.result
      rw [h] at hresult
      have hkind := kind_of_settle hresult
      cases e with
      | accessOutsideAllocations address len =>
        simp [Failure.kind, Failure.report] at hkind
      | _ => rfl

/-- What the device of an execution refuses first decides how the execution ends: a refused
allocation is not fatal, a refused launch and a failed wait are. No copy is refused. -/
theorem device_refusal_kinds (D : Dispatcher) (plan : Plan) (table : Table)
    (code : Option CompiledFunction) (columns : ColumnStore) (m : Machine) (f : CompiledFunction)
    (d : Device) (hprepare : D.prepare plan table code .gpu = .ok (f, { site := .device d })) :
    let outcome := D.execute plan table code columns .gpu m
    (∀ n, D.Refuses plan f columns d m (.allocation n) →
      outcome.result = .error (.outOfDeviceMemory d.id n) ∧ outcome.kernelRuns = []) ∧
    (D.Refuses plan f columns d m .launch → ∃ kernel, f.device = some kernel ∧
      outcome.result = .error (.launchFailed plan.name kernel.name
        (.launchRefused kernel.name D.config.deviceId)) ∧ outcome.kernelRuns = []) ∧
    (D.Refuses plan f columns d m .wait →
      outcome.result = .error (.deviceNotSynchronized D.config.deviceId (.synchronizeFailed d.id)) ∧
        outcome.kernelRuns.length = 1) ∧
    (∀ refusal, D.Refuses plan f columns d m refusal → ∃ e, outcome.result = .error e ∧
      e.kind = refusal.kind ∧ (e.isFatal = false ↔ ∃ n, refusal = .allocation n)) ∧
    ∀ e, outcome.result = .error e → e.isAccess = false := by
  intro outcome
  have hcases := execute_cases columns m hprepare
  have hallocation : ∀ n, D.Refuses plan f columns d m (.allocation n) →
      outcome.result = .error (.outOfDeviceMemory d.id n) ∧ outcome.kernelRuns = [] := by
    rintro n ⟨granted, rest, m', e, hdemands, hgranted, hrefused⟩
    simp only [hdemands, Machine.grantAll_of_first_refused hgranted hrefused] at hcases
    exact hcases
  have hlaunch : D.Refuses plan f columns d m .launch → ∃ kernel, f.device = some kernel ∧
      outcome.result = .error (.launchFailed plan.name kernel.name
        (.launchRefused kernel.name D.config.deviceId)) ∧ outcome.kernelRuns = [] := by
    rintro ⟨m', kernel, given, hgranted, hkernel, hrefuses, hforecast⟩
    simp only [hgranted, forecast_of_launch_refused hkernel hrefuses hforecast] at hcases
    exact ⟨kernel, hkernel, hcases⟩
  have hwait : D.Refuses plan f columns d m .wait →
      outcome.result = .error (.deviceNotSynchronized D.config.deviceId (.synchronizeFailed d.id)) ∧
        outcome.kernelRuns.length = 1 := by
    rintro ⟨m', given, hgranted, hforecast, hfails⟩
    simp only [hgranted, hforecast] at hcases
    obtain ⟨effect, run, hsettles, hrun, -⟩ := hcases
    refine ⟨hsettles.fails (settle_of_wait_refused hfails), ?_⟩
    rw [hrun]
    rfl
  refine ⟨hallocation, hlaunch, hwait, ?_, fun e he => execute_not_access he⟩
  intro refusal hrefuses
  cases refusal with
  | allocation n =>
    refine ⟨_, (hallocation n hrefuses).1, ?_, ?_⟩
    · simp [Failure.kind, Failure.report, DeviceRefusal.kind]
    · simp [Failure.isFatal, Failure.kind, Failure.report, ErrorKind.isFatal]
  | launch =>
    obtain ⟨kernel, -, hresult, -⟩ := hlaunch hrefuses
    refine ⟨_, hresult, ?_, ?_⟩
    · simp [Failure.kind, Failure.report, DeviceRefusal.kind]
    · simp [Failure.isFatal, Failure.kind, Failure.report, ErrorKind.isFatal]
  | wait =>
    refine ⟨_, (hwait hrefuses).1, ?_, ?_⟩
    · simp [Failure.kind, Failure.report, DeviceRefusal.kind]
    · simp [Failure.isFatal, Failure.kind, Failure.report, ErrorKind.isFatal]

/-- A device without room for a constant: the failure that reaches the caller is not fatal. -/
theorem device_refusal_kinds_full :
    let d : Device := { Sample.device with maxLive := some 0 }
    let D : Dispatcher := { device := some d }
    let columns : ColumnStore := { Sample.columns with device := some d }
    let plan : Plan := { Sample.plan with inputs := .constant (.int .w64 7) :: Sample.plan.inputs }
    D.Refuses plan Sample.code columns d {} (.allocation 8) ∧
      ∃ e, (D.execute plan Sample.table (some Sample.code) columns .gpu {}).result = .error e ∧
        e.kind = .other ∧ e.isFatal = false := by
  intro d D columns plan
  have hprepare : D.prepare plan Sample.table (some Sample.code) .gpu =
      .ok (Sample.code, { site := .device d }) := rfl
  have hrefuses : D.Refuses plan Sample.code columns d {} (.allocation 8) :=
    ⟨[], _, {}, .outOfDeviceMemory 0 8, rfl, rfl, rfl⟩
  obtain ⟨-, -, -, hkinds, -⟩ :=
    device_refusal_kinds D plan Sample.table (some Sample.code) columns {} Sample.code d hprepare
  obtain ⟨e, hresult, hkind, hfatal⟩ := hkinds (.allocation 8) hrefuses
  exact ⟨hrefuses, e, hresult, hkind, hfatal.mpr ⟨8, rfl⟩⟩

end Dispatcher

end KernelDispatch
