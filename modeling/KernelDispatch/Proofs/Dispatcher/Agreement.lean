import KernelDispatch.Proofs.Dispatcher.Reconciliation

/-!
# Agreement between host and device

What is forecast of a run does not depend on where it is, once the dispatcher, the store of columns
and the code serve both kinds of device. So a computation that is compiled for both is either
stopped in both places by the same check, or given the same bytes in both. Its row count then
decides the two answers, which differ only where the settings let a device leave the row count
unset.
-/

namespace KernelDispatch

/-- What a kernel computes from the bytes of its inputs and the row count: stores into the output
columns, in order, and a row count. -/
abbrev Computation := List Bytes → Word → List Store × Word

/-- The kernel does what is computed, whatever it finds in its outputs and in the row count cell. -/
def KernelBody.Computes (body : KernelBody) (program : Computation) : Prop :=
  ∀ view, (body view).stores = (program view.inputs view.rows).1 ∧
    (body view).count = some (program view.inputs view.rows).2

/-- The code is one computation compiled for both kinds of device. -/
structure CompiledFunction.Compiles (f : CompiledFunction) (program : Computation) : Prop where
  host : ∃ body, f.host = some body ∧ body.Computes program ∧ ∀ view, (body view).status = 0
  device : ∃ kernel, f.device = some kernel ∧ kernel.body.Computes program ∧
    kernel.refusesLaunch = false

/-- The settings, the device and the store of columns serve runs of both kinds. -/
structure Dispatcher.ServesBoth (D : Dispatcher) (columns : ColumnStore) (d : Device) : Prop where
  valid : D.config.validate = .ok ()
  initializer : D.initializer = .columns
  deviceSupport : D.deviceSupport = true
  device : D.device = some d
  deviceId : d.id = D.config.deviceId
  synchronizes : d.failsSync = false
  fetchDevice : ∃ d', columns.device = some d' ∧ d'.id = D.config.deviceId
  counts : ∀ index column, columns.find? index = some column → column.count < Word.signedBound

/-- No reservation and no allocation was refused to the execution. -/
def Dispatcher.Outcome.Unrefused (outcome : Dispatcher.Outcome) : Prop :=
  ∀ e, outcome.result = .error e → e.isRefusal = false

section Forecasts

theorem ColumnStore.look_device {S : ColumnStore} {deviceId : DeviceId}
    (h : ∃ d, S.device = some d ∧ d.id = deviceId) (ref : ColumnRef) :
    S.look ref .device deviceId = S.look ref .host deviceId := by
  obtain ⟨d, hd, hid⟩ := h
  unfold look
  cases S.find? ref.index with
  | none => rfl
  | some column =>
    simp only [hd]
    exact if_pos hid

namespace Inputs

variable {store : ColumnStore} {function : String} {level : MemoryLevel} {deviceId : DeviceId}

theorem forecastOne_device (h : ∃ d, store.device = some d ∧ d.id = deviceId) (index : ℕ)
    (rows : Option ℕ) (input : InputExpr) :
    forecastOne store function .device deviceId index rows input =
      forecastOne store function .host deviceId index rows input := by
  cases input with
  | column ref => rw [forecastOne, forecastOne, ColumnStore.look_device h]
  | constant value => rfl
  | unresolved description => rfl

theorem forecastFrom_device (h : ∃ d, store.device = some d ∧ d.id = deviceId)
    (inputs : List InputExpr) (index : ℕ) (rows : Option ℕ) :
    forecastFrom store function .device deviceId index rows inputs =
      forecastFrom store function .host deviceId index rows inputs := by
  induction inputs generalizing index rows with
  | nil => rfl
  | cons input rest ih => simp only [forecastFrom, forecastOne_device h, ih]

theorem count_of_forecastOne {index n : ℕ} {rows : Option ℕ} {input : InputExpr} {bytes : Bytes}
    (h : forecastOne store function level deviceId index rows input = .ok (bytes, some n)) :
    rows = some n ∨ ∃ position column, store.find? position = some column ∧ column.count = n := by
  cases input with
  | column ref =>
    obtain ⟨column, hlook, h⟩ := bind_eq_ok_iff.mp h
    have hfind : store.find? ref.index = some column := by
      unfold ColumnStore.look at hlook
      split at hlook
      · cases hlook
      · rename_i column' hcolumn
        rw [hcolumn]
        split at hlook
        · exact congrArg some (Except.ok.inj hlook)
        · split at hlook
          · cases hlook
          · split_ifs at hlook
            exact congrArg some (Except.ok.inj hlook)
    split_ifs at h
    cases h
    exact Or.inr ⟨_, _, hfind, rfl⟩
  | constant value =>
    rw [forecastOne] at h
    split at h
    · cases h
      exact Or.inl rfl
    · cases h
  | unresolved description => cases h

theorem count_of_forecastFrom {inputs : List InputExpr} {index n : ℕ} {rows : Option ℕ}
    {bytes : List Bytes}
    (h : forecastFrom store function level deviceId index rows inputs = .ok (bytes, some n)) :
    rows = some n ∨ ∃ position column, store.find? position = some column ∧ column.count = n := by
  induction inputs generalizing index rows bytes with
  | nil =>
    cases h
    exact Or.inl rfl
  | cons input rest ih =>
    obtain ⟨⟨first, now⟩, hone, h⟩ := bind_eq_ok_iff.mp h
    obtain ⟨⟨others, last⟩, hrest, h⟩ := bind_eq_ok_iff.mp h
    cases h
    rcases ih hrest with rfl | hcolumn
    · exact count_of_forecastOne hone
    · exact Or.inr hcolumn

end Inputs

theorem OutputRequest.check_deviceType {q : OutputRequest} {plan : Plan} {t t' : DeviceType}
    {c c' : Context} (h : { q with deviceType := t }.checkContext c = .ok ())
    (h' : { q with deviceType := t' }.checkContext c' = .ok ()) :
    { q with deviceType := t }.check plan c = { q with deviceType := t' }.check plan c' := by
  unfold check
  rw [h, h']
  rfl

namespace Dispatcher

variable {D : Dispatcher} {columns : ColumnStore} {d : Device} {f : CompiledFunction}
  {program : Computation}

theorem forecastCapacity_device (hD : D.ServesBoth columns d) (plan : Plan) (rows : ℕ) :
    D.forecastCapacity plan (.device d) rows = D.forecastCapacity plan .host rows := by
  unfold forecastCapacity Initializer.forecast
  rw [hD.initializer]
  refine bind_congr fun capacity => ?_
  have hcheck : (D.outputRequest plan .gpu capacity []).check plan { site := .device d } =
      (D.outputRequest plan .cpu capacity []).check plan { site := .host } :=
    OutputRequest.check_deviceType (q := D.outputRequest plan .cpu capacity [])
      (if_pos hD.deviceId) rfl
  have hrequested : Initializer.columns.requested (D.outputRequest plan .gpu capacity []) plan
        (.device d) =
      Initializer.columns.requested (D.outputRequest plan .cpu capacity []) plan .host :=
    congrArg (· >>= fun _ => Except.ok capacity) hcheck
  exact congrArg (· >>= fun c => plan.checkStorage c >>= fun _ => pure c) hrequested

/-- The same is forecast of a run on the device as of one on the host. -/
theorem forecast_device (hD : D.ServesBoth columns d) (hf : f.Compiles program) (plan : Plan) :
    D.forecast plan f columns (.device d) = D.forecast plan f columns .host := by
  obtain ⟨body, hbody, -, -⟩ := hf.host
  obtain ⟨kernel, hkernel, -, haccepts⟩ := hf.device
  change Inputs.forecastFrom columns plan.name .device D.config.deviceId 0 none plan.inputs >>= _ =
    Inputs.forecastFrom columns plan.name .host D.config.deviceId 0 none plan.inputs >>= _
  rw [Inputs.forecastFrom_device hD.fetchDevice]
  cases hinputs :
      Inputs.forecastFrom columns plan.name .host D.config.deviceId 0 none plan.inputs with
  | error e => rfl
  | ok p =>
    obtain ⟨bytes, rows⟩ := p
    cases rows with
    | none => rfl
    | some rows =>
      have htold : kernelRows rows = .ok (BitVec.ofNat 64 rows) := by
        rcases Inputs.count_of_forecastFrom hinputs with hnone | ⟨position, column, hcolumn, rfl⟩
        · cases hnone
        · exact if_pos (hD.counts position column hcolumn)
      change D.forecastRun plan f bytes rows (.device d) = D.forecastRun plan f bytes rows .host
      rw [forecastRun, forecastRun, CompiledFunction.hostBody, CompiledFunction.deviceKernel, hbody,
        hkernel, htold, forecastCapacity_device hD]
      cases D.forecastCapacity plan .host rows with
      | error e => rfl
      | ok capacity =>
        change (D.forecastLaunch plan kernel >>= fun _ => _) = _
        rw [(forecastLaunch_eq_ok_iff plan hD.valid).mpr haccepts]
        rfl

end Dispatcher

end Forecasts

namespace Dispatcher

variable {D : Dispatcher} {plan : Plan} {table : Table} {columns : ColumnStore} {d : Device}
  {f : CompiledFunction} {program : Computation} {site : Site} {m : Machine}

theorem prepare_eq_ok {fragment : Fragment} {target : DeviceType} (hD : D.ServesBoth columns d)
    (htable : table.fragments = [fragment]) (hsite : D.openContext plan target = .ok { site }) :
    D.prepare plan table (some f) target = .ok (f, { site }) := by
  have hfragment : table.singleFragment = .ok fragment := by rw [Table.singleFragment, htable]
  have hsupport : ¬(target = .gpu ∧ D.deviceSupport = false) := by
    rintro ⟨-, hnone⟩
    rw [hD.deviceSupport] at hnone
    cases hnone
  rw [prepare, hD.valid]
  simp only [bind, Except.bind, if_neg hsupport, hfragment, hsite]
  rfl

theorem follows_forecast {target : DeviceType}
    (hprepare : D.prepare plan table (some f) target = .ok (f, { site }))
    (hfree : (D.execute plan table (some f) columns target m).Unrefused) :
    let outcome := D.execute plan table (some f) columns target m
    match D.forecast plan f columns site with
    | .error e => outcome.result = .error e ∧ outcome.kernelRuns = []
    | .ok given => ∃ effect, D.Settles plan f site (.ok given) outcome given effect := by
  intro outcome
  rcases (execute_account columns m hprepare).2.2 with
    ⟨e, he, hruns, hcause⟩ | ⟨given, effect, hsettles⟩
  · rcases hcause with hrefused | hexpected
    · rw [hfree e he] at hrefused
      cases hrefused
    · rw [hexpected]
      exact ⟨he, hruns⟩
  · have hexpected := hsettles.expected
    rw [hexpected] at hsettles ⊢
    exact ⟨effect, hsettles⟩

section Settled

variable {expected : Except Failure Forecast} {outcome : Outcome} {given : Forecast}
  {effect : KernelEffect}

theorem Settles.computed (hf : f.Compiles program)
    (h : D.Settles plan f site expected outcome given effect) :
    effect.stores = (program given.inputs (BitVec.ofNat 64 given.rows)).1 ∧
      effect.count = some (program given.inputs (BitVec.ofNat 64 given.rows)).2 ∧
      (site = .host → effect.status = 0) := by
  obtain ⟨run, body, -, hbody, hview, rfl⟩ := h.run
  obtain ⟨hostBody, hhost, hcomputes, hstatus⟩ := hf.host
  obtain ⟨kernel, hdevice, hcomputes', -⟩ := hf.device
  rw [hview]
  cases site with
  | host =>
    obtain rfl : hostBody = body := Option.some.inj (hhost.symm.trans hbody)
    exact ⟨(hcomputes _).1, (hcomputes _).2, fun _ => hstatus _⟩
  | device d =>
    have hbody' : f.bodyFor .gpu = some kernel.body := by
      rw [CompiledFunction.bodyFor, hdevice]
      rfl
    obtain rfl : kernel.body = body := Option.some.inj (hbody'.symm.trans hbody)
    exact ⟨(hcomputes' _).1, (hcomputes' _).2, fun hhost => Site.noConfusion hhost⟩

/-- How a run on the host and one on the device that have stored and counted the same are
answered. -/
theorem Settles.agree {expected' : Except Failure Forecast} {outcome' : Outcome}
    {effect' : KernelEffect} {count : Word}
    (h : D.Settles plan f .host expected outcome given effect)
    (h' : D.Settles plan f (.device d) expected' outcome' given effect')
    (hstatus : effect.status = 0) (hsync : d.failsSync = false)
    (hstores : effect'.stores = effect.stores) (hcount : effect.count = some count)
    (hcount' : effect'.count = some count) :
    (0 ≤ count.toInt → count.toInt ≤ given.capacity →
      ∃ r r', outcome.result = .ok r ∧ outcome'.result = .ok r' ∧ r.SameAs r' ∧
        r.Shows plan given.capacity count.toNat effect.stores) ∧
    ((given.capacity : ℤ) < count.toInt →
      ∃ e, e.kind = .contractViolation ∧ outcome.result = .error e ∧ outcome'.result = .error e) ∧
    (count.toInt < 0 → ∃ e, e.kind = .contractViolation ∧ outcome.result = .error e ∧
      match D.config.unsetRowCount with
      | .strict => outcome'.result = .error e
      | .fallbackToCapacity =>
        ∃ r', outcome'.result = .ok r' ∧
          r'.Shows plan given.capacity given.capacity effect.stores) := by
  have hreported : effect.count.getD (D.freshCount .host) = count := by rw [hcount]; rfl
  have hreported' : effect'.count.getD (D.freshCount (.device d)) = count := by rw [hcount']; rfl
  refine ⟨?_, ?_, ?_⟩
  · intro hnonneg hle
    obtain ⟨r, hr, hshows⟩ := h.answers (settle_of_fits hstatus hreported hnonneg hle)
    obtain ⟨r', hr', hshows'⟩ := h'.answers (settle_of_fits hsync hreported' hnonneg hle)
    rw [hstores] at hshows'
    exact ⟨r, r', hr, hr', hshows.sameAs hshows', hshows⟩
  · intro hlt
    exact ⟨_, kind_tooManyRows _ _, h.fails (settle_of_exceeds hstatus hreported hlt),
      h'.fails (settle_of_exceeds hsync hreported' hlt)⟩
  · intro hnegative
    have hunset : D.settle plan given.capacity (D.freshCount .host) effect .host =
        .error (.rowCountUnset plan.name count) := by
      rw [settle_host hstatus, hreported, if_pos hnegative]
    refine ⟨_, kind_rowCountUnset _ _, h.fails hunset, ?_⟩
    cases hpolicy : D.config.unsetRowCount with
    | strict =>
      exact h'.fails (by rw [settle_device hsync, hreported', if_pos hnegative, hpolicy])
    | fallbackToCapacity =>
      rw [← hstores]
      exact h'.answers (by rw [settle_device hsync, hreported', if_pos hnegative, hpolicy])

end Settled

/-- A computation that is compiled for both kinds of device is executed alike on the host and on the
device, on machines that refuse nothing, except where it reports no row count and the settings let
the device fall back to the capacity. -/
theorem host_device_agree (D : Dispatcher) (plan : Plan) (table : Table) (f : CompiledFunction)
    (columns : ColumnStore) (m m' : Machine) (program : Computation) (d : Device)
    (fragment : Fragment) (hD : D.ServesBoth columns d) (htable : table.fragments = [fragment])
    (hf : f.Compiles program) (hfree : (D.execute plan table (some f) columns .cpu m).Unrefused)
    (hfree' : (D.execute plan table (some f) columns .gpu m').Unrefused) :
    let host := D.execute plan table (some f) columns .cpu m
    let device := D.execute plan table (some f) columns .gpu m'
    (∃ e, host.result = .error e ∧ device.result = .error e ∧ host.kernelRuns = [] ∧
      device.kernelRuns = []) ∨
    ∃ run run' request request', host.kernelRuns = [run] ∧ device.kernelRuns = [run'] ∧
      run'.view = { run.view with countCell := D.config.sentinel } ∧
      host.requests = [request] ∧ device.requests = [request'] ∧
      request'.request.rows = request.request.rows ∧
      let capacity := request.request.rows
      let stores := (program run.view.inputs run.view.rows).1
      let count := (program run.view.inputs run.view.rows).2
      (0 ≤ count.toInt → count.toInt ≤ capacity →
        ∃ r r', host.result = .ok r ∧ device.result = .ok r' ∧ r.SameAs r' ∧
          r.Shows plan capacity count.toNat stores) ∧
      ((capacity : ℤ) < count.toInt →
        ∃ e, e.kind = .contractViolation ∧ host.result = .error e ∧ device.result = .error e) ∧
      (count.toInt < 0 → ∃ e, e.kind = .contractViolation ∧ host.result = .error e ∧
        match D.config.unsetRowCount with
        | .strict => device.result = .error e
        | .fallbackToCapacity =>
          ∃ r', device.result = .ok r' ∧ r'.Shows plan capacity capacity stores) := by
  have hprepare : D.prepare plan table (some f) .cpu = .ok (f, { site := .host }) :=
    prepare_eq_ok hD htable rfl
  have hprepare' : D.prepare plan table (some f) .gpu = .ok (f, { site := .device d }) :=
    prepare_eq_ok hD htable (by rw [openContext, hD.device])
  have hhost := follows_forecast hprepare hfree
  have hdevice := follows_forecast hprepare' hfree'
  rw [forecast_device hD hf] at hdevice
  intro host device
  cases hforecast : D.forecast plan f columns .host with
  | error e =>
    rw [hforecast] at hhost hdevice
    exact Or.inl ⟨e, hhost.1, hdevice.1, hhost.2, hdevice.2⟩
  | ok given =>
    rw [hforecast] at hhost hdevice
    obtain ⟨effect, hsettles⟩ := hhost
    obtain ⟨effect', hsettles'⟩ := hdevice
    obtain ⟨hstores, hcount, hstatus⟩ := hsettles.computed hf
    obtain ⟨hstores', hcount', -⟩ := hsettles'.computed hf
    obtain ⟨request, hrequest, hcapacity⟩ := hsettles.request
    obtain ⟨request', hrequest', hcapacity'⟩ := hsettles'.request
    rw [hD.initializer] at hcapacity hcapacity'
    obtain ⟨run, -, hrun, -, hview, -⟩ := hsettles.run
    obtain ⟨run', -, hrun', -, hview', -⟩ := hsettles'.run
    refine Or.inr ⟨run, run', request, request', hrun, hrun', by rw [hview, hview']; rfl, hrequest,
      hrequest', hcapacity'.symm.trans hcapacity, ?_⟩
    change given.capacity = request.request.rows at hcapacity
    rw [hview, ← hcapacity]
    have hagree := hsettles.agree hsettles' (hstatus rfl) hD.synchronizes
      (hstores'.trans hstores.symm) hcount hcount'
    rw [hstores] at hagree
    exact hagree

theorem host_device_agree_counting :
    ∃ r r', (Sample.dispatcher.execute Sample.plan Sample.table (some Sample.code) Sample.columns
        .cpu {}).result = .ok r ∧
      (Sample.dispatcher.execute Sample.plan Sample.table (some Sample.code) Sample.columns
        .gpu {}).result = .ok r' ∧ r.SameAs r' ∧ r.slots 0 = .ok [1] := by
  have hserves : Sample.dispatcher.ServesBoth Sample.columns Sample.device := by
    refine ⟨rfl, rfl, rfl, rfl, rfl, rfl, ⟨_, rfl, rfl⟩, ?_⟩
    intro index column hcolumn
    obtain ⟨p, hp, rfl⟩ := Option.map_eq_some_iff.mp hcolumn
    obtain rfl := List.mem_singleton.mp (List.mem_of_find?_eq_some hp)
    decide
  have hcompiles : Sample.code.Compiles fun _ rows => ([.word 0 0 rows], rows) :=
    ⟨⟨_, rfl, fun _ => ⟨rfl, rfl⟩, fun _ => rfl⟩, ⟨_, rfl, fun _ => ⟨rfl, rfl⟩, rfl⟩⟩
  have hhost : (Sample.dispatcher.execute Sample.plan Sample.table (some Sample.code) Sample.columns
      .cpu {}).result.toOption.isSome = true := by decide +kernel
  have hdevice : (Sample.dispatcher.execute Sample.plan Sample.table (some Sample.code)
      Sample.columns .gpu {}).result.toOption.isSome = true := by decide +kernel
  have htold : (Sample.dispatcher.execute Sample.plan Sample.table (some Sample.code) Sample.columns
      .cpu {}).kernelRuns.map (·.view.rows) = [1] := by
    decide +kernel
  have hrows : (Sample.dispatcher.execute Sample.plan Sample.table (some Sample.code) Sample.columns
      .cpu {}).requests.map (·.request.rows) = [1] := by
    decide +kernel
  rcases host_device_agree Sample.dispatcher Sample.plan Sample.table Sample.code Sample.columns {}
    {} (fun _ rows => ([.word 0 0 rows], rows)) Sample.device ⟨0, 1⟩ hserves rfl hcompiles
    (fun e he => by rw [he] at hhost; cases hhost)
    (fun e he => by rw [he] at hdevice; cases hdevice) with
    ⟨e, he, -⟩ | ⟨run, run', request, request', hrun, -, -, hrequest, -, -, hfits, -⟩
  · rw [he] at hhost
    cases hhost
  · rw [hrun] at htold
    rw [hrequest] at hrows
    have hcount : run.view.rows = 1 := List.singleton_inj.mp htold
    have hcapacity : request.request.rows = 1 := List.singleton_inj.mp hrows
    rw [hcount, hcapacity] at hfits
    obtain ⟨r, r', hr, hr', hsame, hshows⟩ := hfits (by decide) (by decide)
    have hwords : (List.range 1).map (storedWord [.word 0 0 1] 0) = [1] := by decide
    refine ⟨r, r', hr, hr', hsame, ?_⟩
    rw [← hwords]
    exact hshows.slots 0 (by decide)

end Dispatcher

end KernelDispatch
