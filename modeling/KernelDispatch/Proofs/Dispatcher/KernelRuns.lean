import KernelDispatch.Proofs.Dispatcher.Conditions
import KernelDispatch.Proofs.Dispatcher.Reconciliation

/-!
# The kernel runs exactly when everything before it succeeds

An execution runs its kernel at most once, and it does so if and only if the settings, the code, the
table, the inputs, the sizes and the launch pass their checks, the machine grants what is then
demanded, and the output is no more than a single allocation can have. Output beyond that ends the
program although all that was demanded has been granted. The kind of an error tells on which side of
the kernel it arose.
-/

namespace KernelDispatch

/-- What a run with materialised inputs demands for an output of this capacity. -/
def Plan.runDemands (plan : Plan) (capacity : ℕ) : Site → List Demand
  | .host => [plan.outputDemand capacity]
  | .device d =>
    [.device d (max (8 * plan.inputs.length) slotBytes), .device d slotBytes, .device d slotBytes,
      plan.outputDemand capacity, .device d slotBytes,
      .device d (max (8 * (plan.outputs.length * capacity)) slotBytes),
      .device d (max (8 * plan.outputs.length) slotBytes)]

namespace Dispatcher

/-- Everything that has to hold before the kernel of an execution at `site` runs, for inputs of
`rows` rows and an output of `capacity` rows. -/
structure Runnable (D : Dispatcher) (plan : Plan) (table : Table) (f : CompiledFunction)
    (columns : ColumnStore) (site : Site) (m : Machine) (rows capacity : ℕ) : Prop where
  settings : D.config.validate = .ok ()
  code : (f.bodyFor site.deviceType).isSome = true
  fragment : table.fragments.length = 1
  inputs : ∀ input ∈ plan.inputs,
    input.Available columns site.deviceType.memoryLevel D.config.deviceId
  column : ∃ input ∈ plan.inputs, input.count? columns = some rows
  counts : ∀ input ∈ plan.inputs, ∀ n, input.count? columns = some n → n = rows
  told : rows < Word.signedBound
  scales : plan.Scales rows capacity
  fits : capacity < sizeBound
  storage : plan.outputs.length * capacity * 8 < sizeBound
  granted : ∃ m', Machine.grantAll
    (plan.inputs.flatMap (Inputs.demandsOne columns D.config.deviceId site) ++
      plan.runDemands capacity site) m = .ok m'
  device : ∀ d, site = .device d →
    D.deviceSupport = true ∧ D.device = some d ∧ d.id = D.config.deviceId
  launch : ∀ d, site = .device d → ∀ kernel, f.device = some kernel → kernel.refusesLaunch = false

variable {D : Dispatcher} {plan : Plan} {table : Table} {f : CompiledFunction}
  {code : Option CompiledFunction} {columns : ColumnStore} {site : Site} {target : DeviceType}
  {m : Machine} {rows capacity : ℕ}

/-- The demands of a run whose output is sized, and what it demands besides if it gets its
output. -/
theorem runDemands_of_requested {rows : ℕ} (hcode : (f.bodyFor site.deviceType).isSome = true)
    (htold : rows < Word.signedBound)
    (hrequested : D.requestedCapacity plan site rows = .ok capacity) :
    ∃ rest, plan.runDemands capacity site =
        D.demandsRun plan f plan.inputs.length rows site ++ rest ∧
      (D.forecastCapacity plan site rows = .ok capacity → rest = []) := by
  obtain ⟨told, htold⟩ := kernelRows_eq_ok_iff.mpr htold
  cases site with
  | host =>
    obtain ⟨body, hbody⟩ := CompiledFunction.exists_hostBody hcode
    refine ⟨[], ?_, fun _ => rfl⟩
    simp only [demandsRun, hbody, hrequested, demandsAfter_ok, Plan.runDemands, List.append_nil]
  | device d =>
    obtain ⟨kernel, hkernel⟩ := CompiledFunction.exists_deviceKernel hcode
    simp only [demandsRun, hkernel, htold, hrequested, demandsAfter_ok, Plan.runDemands]
    cases hcapacity : D.forecastCapacity plan (.device d) rows with
    | error e => exact ⟨_, rfl, fun hok => by cases hok⟩
    | ok c =>
      obtain rfl : c = capacity := by
        have hc := (forecastCapacity_eq_ok_iff.mp hcapacity).1
        exact Except.ok.inj (hc.symm.trans hrequested)
      exact ⟨[], rfl, fun _ => rfl⟩

theorem demands_eq {given : Forecast} (h : D.forecast plan f columns site = .ok given) :
    D.demands plan f columns site =
      plan.inputs.flatMap (Inputs.demandsOne columns D.config.deviceId site) ++
        plan.runDemands given.capacity site := by
  obtain ⟨bytes, rows, hinputs, hrun⟩ := forecast_eq_ok_iff.mp h
  obtain ⟨-, hcode, htold, hcapacity, -⟩ := forecastRun_eq_ok_iff.mp hrun
  obtain ⟨rest, hdemands, hnone⟩ :=
    runDemands_of_requested hcode htold (forecastCapacity_eq_ok_iff.mp hcapacity).1
  rw [demands, Inputs.demandsFrom_eq hinputs, hinputs, demandsAfter_ok, hdemands, hnone hcapacity,
    List.append_nil]

theorem sizeBound_of_told (h : rows < Word.signedBound) : rows < sizeBound :=
  h.trans (by decide)

theorem Runnable.prepares (h : D.Runnable plan table f columns site m rows capacity) :
    D.prepare plan table (some f) site.deviceType = .ok (f, { site }) := by
  refine prepare_eq_ok_iff.mpr ⟨h.settings, rfl, h.fragment, rfl, fun d hd => ?_⟩
  obtain ⟨hsupport, hdevice, -⟩ := h.device d hd
  exact ⟨hsupport, hdevice⟩

theorem Runnable.requests (hinitializer : D.initializer = .columns)
    (h : D.Runnable plan table f columns site m rows capacity) :
    D.requestedCapacity plan site rows = .ok capacity :=
  (requestedCapacity_eq_ok_iff hinitializer (sizeBound_of_told h.told)).mpr
    ⟨⟨h.scales, h.fits⟩, h.storage, fun d hd => (h.device d hd).2.2⟩

theorem Runnable.forecasts (hinitializer : D.initializer = .columns)
    (h : D.Runnable plan table f columns site m rows capacity)
    (hsmall : 8 * (plan.outputs.length * capacity) < Word.signedBound) :
    ∃ given, D.forecast plan f columns site = .ok given ∧ given.capacity = capacity := by
  obtain ⟨bytes, hinputs⟩ :=
    Inputs.forecastFrom_all_passes_iff.mpr ⟨h.inputs, h.counts, h.column⟩
  have hcapacity : D.forecastCapacity plan site rows = .ok capacity :=
    forecastCapacity_eq_ok_iff.mpr ⟨h.requests hinitializer, hsmall⟩
  have hlaunch : ∀ d, site = .device d → ∀ kernel, f.device = some kernel →
      D.forecastLaunch plan kernel = .ok () := fun d hd kernel hkernel =>
    (forecastLaunch_eq_ok_iff plan h.settings).mpr (h.launch d hd kernel hkernel)
  have hrun : D.forecastRun plan f bytes rows site = .ok ⟨bytes, rows, capacity⟩ :=
    forecastRun_eq_ok_iff.mpr ⟨rfl, h.code, h.told, hcapacity, hlaunch⟩
  exact ⟨_, forecast_eq_ok_iff.mpr ⟨bytes, rows, hinputs, hrun⟩, rfl⟩

/-- Output that is more than a single allocation can have is asked for and not obtained. -/
theorem Runnable.overflows (hinitializer : D.initializer = .columns)
    (h : D.Runnable plan table f columns site m rows capacity)
    (hlarge : Word.signedBound ≤ 8 * (plan.outputs.length * capacity)) :
    D.forecast plan f columns site = .error .capacityOverflow ∧
      ∃ m', Machine.grantAll (D.demands plan f columns site) m = .ok m' := by
  have hrequested := h.requests hinitializer
  have hcapacity := forecastCapacity_of_large hrequested hlarge
  obtain ⟨bytes, hinputs⟩ :=
    Inputs.forecastFrom_all_passes_iff.mpr ⟨h.inputs, h.counts, h.column⟩
  have hcode := h.code
  have hrun : D.forecastRun plan f bytes rows site = .error .capacityOverflow := by
    obtain ⟨told, htold⟩ := kernelRows_eq_ok_iff.mpr h.told
    clear h hinputs hrequested
    cases site with
    | host =>
      obtain ⟨body, hbody⟩ := CompiledFunction.exists_hostBody hcode
      rw [forecastRun, hbody, hcapacity]
      rfl
    | device d =>
      obtain ⟨kernel, hkernel⟩ := CompiledFunction.exists_deviceKernel hcode
      rw [forecastRun, hkernel, htold, hcapacity]
      rfl
  refine ⟨?_, ?_⟩
  · rw [forecast, hinputs]
    exact hrun
  · obtain ⟨rest, hdemands, -⟩ := runDemands_of_requested h.code h.told hrequested
    obtain ⟨m', hgranted⟩ := h.granted
    rw [hdemands, ← List.append_assoc, Machine.grantAll_append] at hgranted
    obtain ⟨m₁, hfirst, -⟩ := bind_eq_ok_iff.mp hgranted
    refine ⟨m₁, ?_⟩
    rw [demands, Inputs.demandsFrom_eq hinputs, hinputs, demandsAfter_ok]
    exact hfirst

theorem runnable_of_passes {given : Forecast} {m' : Machine}
    (hinitializer : D.initializer = .columns)
    (hprepare : D.prepare plan table (some f) target = .ok (f, { site }))
    (hforecast : D.forecast plan f columns site = .ok given)
    (hgranted : Machine.grantAll (D.demands plan f columns site) m = .ok m') :
    ∃ rows, D.Runnable plan table f columns site m rows given.capacity ∧
      8 * (plan.outputs.length * given.capacity) < Word.signedBound := by
  rw [demands_eq hforecast] at hgranted
  obtain ⟨hvalid, -, hfragment, -, hopens⟩ := prepare_eq_ok_iff.mp hprepare
  obtain ⟨bytes, rows, hinputs, hrun⟩ := forecast_eq_ok_iff.mp hforecast
  obtain ⟨havailable, hcounts, hcolumn⟩ := Inputs.forecastFrom_all_passes_iff.mp ⟨bytes, hinputs⟩
  obtain ⟨-, hcode, htold, hcapacity, htaken⟩ := forecastRun_eq_ok_iff.mp hrun
  obtain ⟨hrequested, hsmall⟩ := forecastCapacity_eq_ok_iff.mp hcapacity
  obtain ⟨⟨hscales, hfits⟩, hstorage, hids⟩ :=
    (requestedCapacity_eq_ok_iff hinitializer (sizeBound_of_told htold)).mp hrequested
  have hdevice : ∀ d, site = .device d →
      D.deviceSupport = true ∧ D.device = some d ∧ d.id = D.config.deviceId := by
    intro d hd
    obtain ⟨hsupport, hd'⟩ := hopens d hd
    exact ⟨hsupport, hd', hids d hd⟩
  have hlaunch : ∀ d, site = .device d → ∀ kernel, f.device = some kernel →
      kernel.refusesLaunch = false := fun d hd kernel hkernel =>
    (forecastLaunch_eq_ok_iff plan hvalid).mp (htaken d hd kernel hkernel)
  exact ⟨rows, ⟨hvalid, hcode, hfragment, havailable, hcolumn, hcounts, htold, hscales, hfits,
    hstorage, ⟨m', hgranted⟩, hdevice, hlaunch⟩, hsmall⟩

/-- With the default initializer the kernel of an execution runs exactly if the execution is
runnable and its output is no more than a single allocation can have. -/
theorem runs_iff_runnable (hinitializer : D.initializer = .columns) :
    (D.execute plan table code columns target m).kernelRuns ≠ [] ↔
      ∃ f site rows capacity, code = some f ∧ site.deviceType = target ∧
        D.Runnable plan table f columns site m rows capacity ∧
        8 * (plan.outputs.length * capacity) < Word.signedBound := by
  constructor
  · intro hruns
    cases hprepare : D.prepare plan table code target with
    | error e => exact absurd (by rw [execute_of_prepare_error hprepare]) hruns
    | ok fc =>
      obtain ⟨f, context⟩ := fc
      obtain ⟨rfl, hcontext, htarget, -⟩ := prepare_ok hprepare
      have hcases := execute_cases columns m hprepare
      rw [hcontext] at hprepare
      cases hgranted : Machine.grantAll (D.demands plan f columns context.site) m with
      | error e =>
        rw [hgranted] at hcases
        exact absurd hcases.2 hruns
      | ok m' =>
        rw [hgranted] at hcases
        cases hforecast : D.forecast plan f columns context.site with
        | error e =>
          rw [hforecast] at hcases
          exact absurd hcases.2 hruns
        | ok given =>
          obtain ⟨rows, hrunnable⟩ := runnable_of_passes hinitializer hprepare hforecast hgranted
          exact ⟨f, context.site, rows, given.capacity, rfl, htarget, hrunnable⟩
  · rintro ⟨f, site, rows, capacity, rfl, rfl, hrunnable, hsmall⟩
    obtain ⟨given, hforecast, rfl⟩ := hrunnable.forecasts hinitializer hsmall
    obtain ⟨m', hgranted⟩ := hrunnable.granted
    rw [← demands_eq hforecast] at hgranted
    have hcases := execute_cases columns m hrunnable.prepares
    simp only [hgranted, hforecast] at hcases
    obtain ⟨effect, run, -, hrun, -⟩ := hcases
    rw [hrun]
    exact List.cons_ne_nil _ _

/-- An execution that is runnable up to the size of its output ends the program instead. -/
theorem overflows_of_runnable (hinitializer : D.initializer = .columns)
    (h : D.Runnable plan table f columns site m rows capacity)
    (hlarge : Word.signedBound ≤ 8 * (plan.outputs.length * capacity)) :
    let outcome := D.execute plan table (some f) columns site.deviceType m
    outcome.result = .error .capacityOverflow ∧ outcome.kernelRuns = [] := by
  obtain ⟨hforecast, m', hgranted⟩ := h.overflows hinitializer hlarge
  have hcases := execute_cases columns m h.prepares
  simp only [hgranted, hforecast] at hcases
  exact hcases

theorem kind_of_settle {effect : KernelEffect} {before : Word} {e : Failure}
    (h : D.settle plan capacity before effect site = .error e) :
    e.kind = .execution ∨ e.kind = .contractViolation ∨ e.kind = .internal ∧
      ∃ d, site = .device d ∧ d.failsSync = true ∧
        e = .deviceNotSynchronized D.config.deviceId (.synchronizeFailed d.id) := by
  have hwithin {count : ℕ} (h : withinCapacity capacity count = .error e) :
      e.kind = .contractViolation := by
    unfold withinCapacity at h
    split_ifs at h
    cases h
    exact kind_tooManyRows _ _
  cases site with
  | host =>
    unfold settle at h
    split_ifs at h
    · simp only at h
      split_ifs at h
      · cases h
        exact Or.inr (Or.inl (kind_rowCountUnset _ _))
      · exact Or.inr (Or.inl (hwithin h))
    · cases h
      exact Or.inl (kind_kernelStatus _ _)
  | device d =>
    rcases bind_eq_error_iff.mp h with hsync | ⟨_, -, h⟩
    · unfold synchronize Device.synchronize at hsync
      cases hfails : d.failsSync with
      | false =>
        rw [hfails] at hsync
        cases hsync
      | true =>
        rw [hfails] at hsync
        cases hsync
        exact Or.inr (Or.inr ⟨by simp [Failure.kind, Failure.report], d, rfl, hfails, rfl⟩)
    · rcases bind_eq_error_iff.mp h with hreported | ⟨count, -, h⟩
      · unfold reportedRows at hreported
        split_ifs at hreported
        · split at hreported
          · cases hreported
          · cases hreported
            exact Or.inr (Or.inl (kind_rowCountUnset _ _))
      · exact Or.inr (Or.inl (hwithin h))

theorem kind_of_no_run {e : Failure} (hinitializer : D.initializer = .columns)
    (hresult : (D.execute plan table code columns target m).result = .error e)
    (hruns : (D.execute plan table code columns target m).kernelRuns = []) :
    e.isRefusal = true ∨ e.precedesKernel = true := by
  cases hprepare : D.prepare plan table code target with
  | error e' =>
    rw [execute_of_prepare_error hprepare] at hresult
    cases hresult
    exact Or.inr (D.prepare_checks plan table code target _ hprepare)
  | ok fc =>
    obtain ⟨f, context⟩ := fc
    rcases (execute_account columns m hprepare).2.2 with ⟨e', he', -, hcause⟩
      | ⟨given, effect, hsettles⟩
    · obtain rfl : e' = e := Except.error.inj (he'.symm.trans hresult)
      refine hcause.imp_right fun hforecast => ?_
      rcases forecast_error hforecast with hcheck | ⟨message, hfailing, -⟩
      · exact hcheck
      · rw [hinitializer] at hfailing
        cases hfailing
    · obtain ⟨run, body, hrun, -⟩ := hsettles.run
      exact nomatch hrun.symm.trans hruns

/-- With the default initializer the kernel runs at most once. It runs exactly if all checks pass,
every demand is granted and the output has less than `2 ^ 63` bytes; output of more ends the program
in place of the kernel. What an execution fails with is of another kind after its kernel has run
than before, except for internal errors: after the kernel these are failures to wait for the
device. -/
theorem kernel_runs_iff (D : Dispatcher) (plan : Plan) (table : Table)
    (code : Option CompiledFunction) (columns : ColumnStore) (target : DeviceType) (m : Machine)
    (hinitializer : D.initializer = .columns) :
    let outcome := D.execute plan table code columns target m
    outcome.kernelRuns.length ≤ 1 ∧
    (outcome.kernelRuns ≠ [] ↔ ∃ f site rows capacity, code = some f ∧ site.deviceType = target ∧
      D.Runnable plan table f columns site m rows capacity ∧
      8 * (plan.outputs.length * capacity) < Word.signedBound) ∧
    (∀ f site rows capacity, code = some f → site.deviceType = target →
      D.Runnable plan table f columns site m rows capacity →
      Word.signedBound ≤ 8 * (plan.outputs.length * capacity) →
      outcome.result = .error .capacityOverflow ∧ outcome.kernelRuns = []) ∧
    ∀ e, outcome.result = .error e →
      (outcome.kernelRuns ≠ [] → e.kind = .execution ∨ e.kind = .contractViolation ∨
        e.kind = .internal ∧ target = .gpu ∧ ∃ d, D.device = some d ∧ d.failsSync = true ∧
          e = .deviceNotSynchronized D.config.deviceId (.synchronizeFailed d.id)) ∧
      (outcome.kernelRuns = [] → e = .capacityOverflow ∨
        e.kind = .config ∨ e.kind = .internal ∨ e.kind = .other ∧
          (e.isRefusal = true ∨ e.isFetchFailure = true ∨ e = .inputTooLong)) := by
  intro outcome
  refine ⟨?_, runs_iff_runnable hinitializer, ?_, fun e he => ⟨fun hruns => ?_, fun hruns => ?_⟩⟩
  · rcases hruns : outcome.kernelRuns with _ | ⟨run, rest⟩
    · exact Nat.zero_le 1
    · obtain ⟨f, site, given, effect, -, -, -, hsettles⟩ :=
        settles_of_run (hruns ▸ List.mem_cons_self : run ∈ outcome.kernelRuns)
      obtain ⟨run', body, hrun, -⟩ := hsettles.run
      rw [← hruns, hrun]
      exact le_rfl
  · rintro f site rows capacity rfl rfl hrunnable hlarge
    exact overflows_of_runnable hinitializer hrunnable hlarge
  · obtain ⟨run, hrun⟩ := List.exists_mem_of_ne_nil _ hruns
    obtain ⟨f, site, given, effect, -, htarget, hdevice, hsettles⟩ := settles_of_run hrun
    have hresult := hsettles.result
    rw [he] at hresult
    refine (kind_of_settle hresult).imp_right (Or.imp_right ?_)
    rintro ⟨hkind, d, rfl, hfails, hcause⟩
    exact ⟨hkind, htarget.symm, d, hdevice d rfl, hfails, hcause⟩
  · rcases kind_of_no_run hinitializer he hruns with hrefusal | hcheck
    · exact Or.inr (Or.inr (Or.inr ⟨Failure.kind_of_isRefusal hrefusal, Or.inl hrefusal⟩))
    · rcases Failure.kind_of_precedesKernel hcheck with hkind | hkind
        | ⟨hkind, hfetch | hrows | hlarge⟩
      · exact Or.inr (Or.inl hkind)
      · exact Or.inr (Or.inr (Or.inl hkind))
      · exact Or.inr (Or.inr (Or.inr ⟨hkind, Or.inr (Or.inl hfetch)⟩))
      · exact Or.inr (Or.inr (Or.inr ⟨hkind, Or.inr (Or.inr hrows)⟩))
      · exact Or.inl hlarge

/-- The sample with a multiplier of `2 ^ 60`. -/
def wideSample : Plan := { Sample.plan with sizing := some (.rowMultiplier 0x43B0000000000000#64) }

theorem runnable_wideSample : Sample.dispatcher.Runnable wideSample Sample.table Sample.code
    Sample.columns .host {} 1 (2 ^ 60) := by
  have hscaled : (wideSample.rowCapacity 1).toOption = some (2 ^ 60) := by decide +kernel
  have hcapacity : wideSample.rowCapacity 1 = .ok (2 ^ 60) := by
    cases h : wideSample.rowCapacity 1 with
    | error e =>
      rw [h] at hscaled
      cases hscaled
    | ok capacity =>
      rw [h] at hscaled
      exact congrArg Except.ok (Option.some.inj hscaled)
  obtain ⟨hscales, hfits⟩ := (Plan.rowCapacity_eq_ok_iff (by decide)).mp hcapacity
  exact
    { settings := rfl
      code := rfl
      fragment := rfl
      inputs := by
        intro input hinput
        rw [List.mem_singleton.mp hinput]
        exact ⟨rfl, nofun⟩
      column := ⟨_, List.mem_singleton_self _, rfl⟩
      counts := by
        intro input hinput n hn
        rw [List.mem_singleton.mp hinput] at hn
        exact (Option.some.inj hn).symm
      told := by decide
      scales := hscales
      fits := hfits
      storage := by decide
      granted := ⟨_, rfl⟩
      device := nofun
      launch := nofun }

/-- The kernel of the sample runs on its device. With a multiplier of `2 ^ 60` it meets the same
conditions on the host, and its output of `2 ^ 63` bytes ends the program. -/
theorem kernel_runs_iff_counting :
    Sample.dispatcher.initializer = .columns ∧
      (∃ f site rows capacity, some Sample.code = some f ∧ site.deviceType = .gpu ∧
        Sample.dispatcher.Runnable Sample.plan Sample.table f Sample.columns site {} rows capacity ∧
        8 * (Sample.plan.outputs.length * capacity) < Word.signedBound) ∧
      let outcome := Sample.dispatcher.execute wideSample Sample.table (some Sample.code)
        Sample.columns .cpu {}
      outcome.result = .error .capacityOverflow ∧ outcome.kernelRuns = [] := by
  have hcount : (Sample.dispatcher.execute Sample.plan Sample.table (some Sample.code)
      Sample.columns .gpu {}).kernelRuns.length = 1 := by
    decide +kernel
  have hruns := List.ne_nil_of_length_pos (hcount.symm ▸ Nat.zero_lt_one)
  have hcases := kernel_runs_iff Sample.dispatcher
  refine ⟨rfl, (hcases Sample.plan Sample.table (some Sample.code) Sample.columns .gpu {}
    rfl).2.1.mp hruns, ?_⟩
  exact (hcases wideSample Sample.table (some Sample.code) Sample.columns .cpu {} rfl).2.2.1 _ .host
    1 (2 ^ 60) rfl rfl runnable_wideSample (by decide)

end Dispatcher

end KernelDispatch
