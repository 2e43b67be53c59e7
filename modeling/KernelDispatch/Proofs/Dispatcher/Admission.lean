import KernelDispatch.Proofs.Dispatcher.Independence
import KernelDispatch.Proofs.Dispatcher.KernelRuns
import KernelDispatch.Proofs.Fit

/-!
# How much memory an execution needs

An execution that would succeed without limits on memory succeeds under limits exactly if these
leave room for all that it demands: on the host a cell for each constant, and the output; on a
device one allocation for each input and six more. Otherwise it ends with the first refusal, before
its kernel runs, and gives everything back.
-/

namespace KernelDispatch

def InputExpr.isConstant : InputExpr → Bool
  | constant _ => true
  | _ => false

/-- The bytes that an execution on the host reserves: a cell for each constant, and the output. -/
def Plan.hostNeed (plan : Plan) (capacity : ℕ) : ℕ :=
  8 * plan.inputs.countP (·.isConstant) + 8 * (plan.outputs.length * capacity)

def Machine.unlimited (m : Machine) : Machine :=
  { m with budget := { m.budget with limit := none } }

namespace Inputs

variable {store : ColumnStore} {deviceId : DeviceId} {d : Device} {input : InputExpr}
  {inputs : List InputExpr}

theorem demandsOne_constant {value : Scalar} {site : Site} (h : value.HasCell) :
    demandsOne store deviceId site (.constant value) = [site.demand slotBytes] := by
  obtain ⟨bytes, hbytes⟩ := Scalar.hasCell_iff.mp h
  rw [demandsOne, hbytes]
  rfl

theorem demands_host (h : ∀ input ∈ inputs, input.Available store .host deviceId) :
    inputs.flatMap (demandsOne store deviceId .host) =
      List.replicate (inputs.countP (·.isConstant)) (.host slotBytes) := by
  induction inputs with
  | nil => rfl
  | cons input rest ih =>
    have hone := h input List.mem_cons_self
    rw [List.flatMap_cons, ih fun x hx => h x (List.mem_cons_of_mem input hx)]
    cases input with
    | column ref => rfl
    | constant value =>
      rw [List.countP_cons_of_pos rfl, List.replicate_succ, demandsOne_constant hone]
      rfl
    | unresolved description => exact absurd hone id

theorem demands_device (hdevice : store.device = some d)
    (h : ∀ input ∈ inputs, input.Available store .device deviceId) :
    ∃ sizes : List ℕ, sizes.length = inputs.length ∧
      inputs.flatMap (demandsOne store deviceId (.device d)) = sizes.map (.device d) := by
  induction inputs with
  | nil => exact ⟨[], rfl, rfl⟩
  | cons input rest ih =>
    have hone := h input List.mem_cons_self
    obtain ⟨sizes, hlength, hrest⟩ := ih fun x hx => h x (List.mem_cons_of_mem input hx)
    obtain ⟨size, hsize⟩ : ∃ size, demandsOne store deviceId (.device d) input =
        [.device d size] := by
      cases input with
      | column ref =>
        obtain ⟨hfound, hserved⟩ := hone
        obtain ⟨c, hfind⟩ := Option.isSome_iff_exists.mp hfound
        have hlook := ColumnStore.look_eq_ok_iff.mpr ⟨hfind, hserved⟩
        exact ⟨max c.bytes.length slotBytes, by
          simp only [demandsOne, ColumnStore.demands, hlook, hdevice]⟩
      | constant value => exact ⟨slotBytes, demandsOne_constant hone⟩
      | unresolved description => exact absurd hone id
    refine ⟨size :: sizes, congrArg Nat.succ hlength, ?_⟩
    rw [List.flatMap_cons, hsize, hrest]
    rfl

end Inputs

namespace Dispatcher

/-- The demands of an invocation whose checks all pass, for an output of `capacity` rows. -/
def fullDemands (D : Dispatcher) (plan : Plan) (columns : ColumnStore) (capacity : ℕ)
    (site : Site) : List Demand :=
  plan.inputs.flatMap (Inputs.demandsOne columns D.config.deviceId site) ++
    plan.runDemands capacity site

/-- How an execution on `m` would end if neither host memory nor a device had a limit. -/
def unlimited (D : Dispatcher) (plan : Plan) (table : Table) (code : Option CompiledFunction)
    (columns : ColumnStore) (target : DeviceType) (m : Machine) : Outcome :=
  (D.relimit fun _ => none).execute plan table code (columns.relimit fun _ => none)
    target m.unlimited

/-- The execution answers as `r` if `fits` holds. If not, the first of its demands `ds` that is not
granted ends it before its kernel runs, and it leaves the memory of `m` as it was. -/
structure Outcome.DecidedBy (fits : Prop) (r : ResultSet) (ds : List Demand) (m : Machine)
    (outcome : Outcome) : Prop where
  succeeds : (∃ r', outcome.result = .ok r') ↔ fits
  answer : ∀ r', outcome.result = .ok r' → r.SameAs r'
  refusal : ¬fits → ∃ e, outcome.result = .error e ∧ m.FirstRefusal ds e
  unrun : ¬fits → outcome.kernelRuns = []
  budget : ¬fits → outcome.machine.budget = m.budget
  heap : ¬fits → outcome.machine.heap = m.heap

variable {D : Dispatcher} {plan : Plan} {table : Table} {code : Option CompiledFunction}
  {f : CompiledFunction} {columns : ColumnStore} {target : DeviceType} {site : Site} {m : Machine}
  {d : Device} {given : Forecast} {r : ResultSet} {capacity : ℕ} {fits : Prop}

/-- An execution with a result has passed its checks, and all its demands have been granted. -/
theorem granted_of_result {context : Context}
    (hprepare : D.prepare plan table code target = .ok (f, context))
    (h : (D.execute plan table code columns target m).result = .ok r) :
    (∃ m', Machine.grantAll (D.demands plan f columns context.site) m = .ok m') ∧
      ∃ given, D.forecast plan f columns context.site = .ok given ∧
      r.capacity = given.capacity := by
  have hcases := execute_cases columns m hprepare
  cases hgranted : Machine.grantAll (D.demands plan f columns context.site) m with
  | error e =>
    rw [hgranted] at hcases
    exact nomatch h.symm.trans hcases.1
  | ok m' =>
    rw [hgranted] at hcases
    cases hforecast : D.forecast plan f columns context.site with
    | error e =>
      rw [hforecast] at hcases
      exact nomatch h.symm.trans hcases.1
    | ok given =>
      rw [hforecast] at hcases
      obtain ⟨effect, run, hsettles, -⟩ := hcases
      exact ⟨⟨m', rfl⟩, given, rfl, (hsettles.shows h).capacity⟩

/-- Everything but memory lets the execution succeed, with an output of `capacity` rows. -/
structure Passes (D : Dispatcher) (plan : Plan) (table : Table) (code : Option CompiledFunction)
    (columns : ColumnStore) (target : DeviceType) (m : Machine) (f : CompiledFunction) (site : Site)
    (capacity : ℕ) : Prop where
  prepares : D.prepare plan table code target = .ok (f, { site })
  forecasts : ∃ given, D.forecast plan f columns site = .ok given ∧ capacity = given.capacity
  addresses : m.heap.top + addressesOf (D.demands plan f columns site) ≤ addressSpace

theorem passes_of_unlimited (h : (D.unlimited plan table code columns target m).result = .ok r) :
    ∃ f site, D.Passes plan table code columns target m f site r.capacity := by
  have hprepare' := D.prepare_relimit (fun _ => none) plan table code target
  cases hprepare : D.prepare plan table code target with
  | error e =>
    rw [hprepare] at hprepare'
    rw [unlimited, execute_of_prepare_error hprepare'] at h
    cases h
  | ok fc =>
    obtain ⟨f, context⟩ := fc
    rw [hprepare] at hprepare'
    obtain ⟨-, hcontext, -⟩ := prepare_ok hprepare
    obtain ⟨⟨m', hgranted⟩, hforecast⟩ := granted_of_result hprepare' h
    have haddresses := Machine.addresses_of_grantAll hgranted
    simp only [demands_relimit, addressesOf_relimit, forecast_relimit] at haddresses hforecast
    exact ⟨f, context.site, hcontext ▸ hprepare, hforecast, haddresses⟩

theorem Passes.demands_eq (h : D.Passes plan table code columns target m f site capacity) :
    D.demands plan f columns site = D.fullDemands plan columns capacity site := by
  obtain ⟨given, hforecast, rfl⟩ := h.forecasts
  exact Dispatcher.demands_eq hforecast

theorem Passes.available (h : D.Passes plan table code columns target m f site capacity) :
    ∀ input ∈ plan.inputs, input.Available columns site.deviceType.memoryLevel
      D.config.deviceId := by
  obtain ⟨given, hforecast, -⟩ := h.forecasts
  obtain ⟨bytes, rows, hinputs, -⟩ := forecast_eq_ok_iff.mp hforecast
  exact (Inputs.forecastFrom_all_passes_iff.mp ⟨bytes, hinputs⟩).1

theorem Passes.answers {m' : Machine}
    (h : D.Passes plan table code columns target m f site capacity)
    (hr : (D.unlimited plan table code columns target m).result = .ok r)
    (hgranted : Machine.grantAll (D.demands plan f columns site) m = .ok m') :
    ∃ r', (D.execute plan table code columns target m).result = .ok r' ∧ r.SameAs r' := by
  have hprepare' := D.prepare_relimit (fun _ => none) plan table code target
  rw [h.prepares] at hprepare'
  obtain ⟨⟨m₂, hgranted'⟩, -⟩ := granted_of_result hprepare' hr
  have hsame : SameAnswer (D.unlimited plan table code columns target m).result
      (D.execute plan table code columns target m).result :=
    execute_sameAnswer hprepare' h.prepares (Or.inl ⟨m₂, m', hgranted', hgranted⟩)
      (D.forecast_relimit _ plan f columns site).symm (site.deviceType_relimit _).symm
      (freshCount_relimit _).symm fun _ _ _ => (settle_relimit _ _ _ _).symm
  rw [hr] at hsame
  cases hresult : (D.execute plan table code columns target m).result with
  | error e =>
    rw [hresult] at hsame
    cases hsame
  | ok r' =>
    rw [hresult] at hsame
    exact ⟨r', rfl, hsame⟩

/-- A refused demand ends the execution before its kernel, and the memory is as it was. -/
theorem execute_of_refused {e : Failure}
    (hprepare : D.prepare plan table code target = .ok (f, { site }))
    (hrefused : Machine.grantAll (D.demands plan f columns site) m = .error e) :
    let outcome := D.execute plan table code columns target m
    outcome.result = .error e ∧ outcome.kernelRuns = [] ∧ outcome.machine.budget = m.budget ∧
      outcome.machine.heap = m.heap := by
  have hcases := execute_cases columns m hprepare
  rw [hrefused] at hcases
  obtain ⟨hresult, hruns⟩ := hcases
  obtain ⟨hheap, hlimit, hinUse⟩ := D.execute_machine plan table code columns target m
  rw [hresult, answerBytes, BitVec.add_zero] at hinUse
  exact ⟨hresult, hruns, congrArg₂ Budget.mk hinUse hlimit, hheap⟩

/-- Whether the demands are granted decides how the execution ends. -/
theorem Passes.decided (h : D.Passes plan table code columns target m f site r.capacity)
    (hr : (D.unlimited plan table code columns target m).result = .ok r)
    (hfits :
      (∃ m', Machine.grantAll (D.fullDemands plan columns r.capacity site) m = .ok m') ↔ fits) :
    (D.execute plan table code columns target m).DecidedBy fits r
      (D.fullDemands plan columns r.capacity site) m := by
  rw [← h.demands_eq] at hfits ⊢
  rw [← hfits]
  cases hgranted : Machine.grantAll (D.demands plan f columns site) m with
  | ok m' =>
    obtain ⟨r', hresult, hsame⟩ := h.answers hr hgranted
    have hadmitted : ∃ m₁, (.ok m' : Except Failure Machine) = .ok m₁ := ⟨m', rfl⟩
    refine ⟨⟨fun _ => hadmitted, fun _ => ⟨r', hresult⟩⟩, fun r₁ hr₁ => ?_, absurd hadmitted,
      absurd hadmitted, absurd hadmitted, absurd hadmitted⟩
    rwa [← Except.ok.inj (hresult.symm.trans hr₁)]
  | error e =>
    obtain ⟨hresult, hruns, hbudget, hheap⟩ := execute_of_refused h.prepares hgranted
    have hfails (r' : ResultSet) :
        (D.execute plan table code columns target m).result ≠ .ok r' := by
      intro hr'
      rw [hresult] at hr'
      cases hr'
    constructor
    · constructor
      · rintro ⟨r', hr'⟩
        exact absurd hr' (hfails r')
      · rintro ⟨m', hm'⟩
        cases hm'
    · exact fun r' hr' => absurd hr' (hfails r')
    · exact fun _ => ⟨e, hresult, Machine.firstRefusal_of_error hgranted⟩
    · exact fun _ => hruns
    · exact fun _ => hbudget
    · exact fun _ => hheap

/-- On the host an execution is granted its demands exactly if the budget has room for its bytes. -/
theorem Passes.fits_host_iff (h : D.Passes plan table code columns target m f .host capacity)
    (hbytes : m.budget.inUse.toNat + plan.hostNeed capacity < sizeBound) :
    (∃ m', Machine.grantAll (D.fullDemands plan columns capacity .host) m = .ok m') ↔
      m.HasBytes (plan.hostNeed capacity) := by
  have hdemands : D.fullDemands plan columns capacity .host =
      List.replicate (plan.inputs.countP (·.isConstant)) (.host slotBytes) ++
        [plan.outputDemand capacity] := by
    rw [fullDemands, Inputs.demands_host h.available, Plan.runDemands]
  have hneed : hostBytesOf (D.fullDemands plan columns capacity .host) =
      plan.hostNeed capacity := by
    rw [hdemands]
    simp [hostBytesOf, Demand.hostBytes, Plan.outputDemand, Plan.hostNeed, slotBytes, Nat.mul_comm]
  have hhost : ∀ x ∈ D.fullDemands plan columns capacity .host, ∃ n, x = .host n := by
    intro x hx
    rw [hdemands] at hx
    rcases List.mem_append.mp hx with hcell | houtput
    · exact ⟨slotBytes, List.eq_of_mem_replicate hcell⟩
    · exact ⟨_, List.mem_singleton.mp houtput⟩
  have haddresses := h.addresses
  rw [h.demands_eq] at haddresses
  -- No demand is made of a device, so that any device will do.
  rw [← hneed, Machine.grantAll_ok_iff (d := { slot := 0, id := 0 }) _ (hneed ▸ hbytes) haddresses]
  · constructor
    · intro hfits
      refine hfits.bytes (8 * (plan.outputs.length * capacity)) ?_
      rw [hdemands]
      exact List.mem_append_right _ (List.mem_singleton.mpr rfl)
    · intro hroom
      refine ⟨fun _ _ => hroom, fun n hn => ?_⟩
      obtain ⟨k, hk⟩ := hhost _ hn
      cases hk
  · intro x hx
    obtain ⟨n, rfl⟩ := hhost x hx
    trivial

/-- On a device an execution is granted its demands exactly if the budget has room for the output
and the device for the inputs and six more allocations. -/
theorem Passes.fits_device_iff (hdevice : columns.device = some d)
    (h : D.Passes plan table code columns target m f (.device d) capacity)
    (hbytes : m.budget.inUse.toNat + 8 * (plan.outputs.length * capacity) < sizeBound) :
    (∃ m', Machine.grantAll (D.fullDemands plan columns capacity (.device d)) m = .ok m') ↔
      m.HasBytes (8 * (plan.outputs.length * capacity)) ∧
      m.HasSlots d (plan.inputs.length + 6) := by
  obtain ⟨sizes, hlength, hinputs⟩ := Inputs.demands_device hdevice h.available
  have hdemands : D.fullDemands plan columns capacity (.device d) =
      sizes.map (.device d) ++ plan.runDemands capacity (.device d) := by
    rw [fullDemands, hinputs]
  have hneed : hostBytesOf (D.fullDemands plan columns capacity (.device d)) =
      8 * (plan.outputs.length * capacity) := by
    rw [hdemands, hostBytesOf_append, hostBytesOf_eq_zero (by simp)]
    simp [Plan.runDemands, Plan.outputDemand, Demand.hostBytes]
  have hallocations : allocationsOf (D.fullDemands plan columns capacity (.device d)) =
      plan.inputs.length + 6 := by
    rw [hdemands, allocationsOf_append, ← hlength]
    simp [allocationsOf, Plan.runDemands, Plan.outputDemand, Demand.allocations, Function.comp_def]
  have haddresses := h.addresses
  rw [h.demands_eq] at haddresses
  rw [← hallocations, ← hneed, Machine.grantAll_ok_iff _ (hneed ▸ hbytes) haddresses]
  · constructor
    · intro hfits
      refine ⟨hfits.bytes (8 * (plan.outputs.length * capacity)) ?_, hfits.slots slotBytes ?_⟩
      · rw [hdemands]
        simp [Plan.runDemands, Plan.outputDemand]
      · rw [hdemands]
        simp [Plan.runDemands]
    · rintro ⟨hroom, hslots⟩
      exact ⟨fun _ _ => hroom, fun _ _ => hslots⟩
  · intro x hx
    rw [hdemands] at hx
    rcases List.mem_append.mp hx with hinput | hrun
    · obtain ⟨n, -, rfl⟩ := List.mem_map.mp hinput
      rfl
    · simp only [Plan.runDemands, List.mem_cons, List.not_mem_nil, or_false] at hrun
      rcases hrun with rfl | rfl | rfl | rfl | rfl | rfl | rfl
      all_goals first | rfl | trivial

/-- An execution that succeeds where memory is not limited, on the host or with its columns on its
own device, succeeds under limits with the same answer exactly if there is room for what it needs,
as long as sums stay within words. If there is none, the refusal of its first demand that is not
granted is the answer, the kernel has not run, and the memory is as it was. -/
theorem admits_exactly_what_fits (D : Dispatcher) (plan : Plan) (table : Table)
    (code : Option CompiledFunction) (columns : ColumnStore) (m : Machine) :
    (∀ r, (D.unlimited plan table code columns .cpu m).result = .ok r →
      m.budget.inUse.toNat + plan.hostNeed r.capacity < sizeBound →
        (D.execute plan table code columns .cpu m).DecidedBy (m.HasBytes (plan.hostNeed r.capacity))
          r (D.fullDemands plan columns r.capacity .host) m) ∧
    ∀ d r, D.device = some d → columns.device = some d →
      (D.unlimited plan table code columns .gpu m).result = .ok r →
      m.budget.inUse.toNat + 8 * (plan.outputs.length * r.capacity) < sizeBound →
        (D.execute plan table code columns .gpu m).DecidedBy
          (m.HasBytes (8 * (plan.outputs.length * r.capacity)) ∧
            m.HasSlots d (plan.inputs.length + 6))
          r (D.fullDemands plan columns r.capacity (.device d)) m := by
  constructor
  · intro r hr hbytes
    obtain ⟨f, site, h⟩ := passes_of_unlimited hr
    obtain ⟨-, -, htype, -⟩ := prepare_ok h.prepares
    cases site with
    | host => exact h.decided hr (h.fits_host_iff hbytes)
    | device d => cases htype
  · intro d r hd hcolumns hr hbytes
    obtain ⟨f, site, h⟩ := passes_of_unlimited hr
    obtain ⟨-, -, htype, hdevice⟩ := prepare_ok h.prepares
    cases site with
    | host => cases htype
    | device d' =>
      obtain rfl : d = d' := Option.some.inj (hd.symm.trans (hdevice d' rfl))
      exact h.decided hr (h.fits_device_iff hcolumns hbytes)

/-- With one constant, one column and an output of one word, the host needs two words, and a device
eight allocations. -/
theorem admits_exactly_what_fits_constant :
    let d : Device := { Sample.device with maxLive := some 7 }
    let D : Dispatcher := { device := some d }
    let columns : ColumnStore := { Sample.columns with device := some d }
    let plan : Plan := { Sample.plan with inputs := .constant (.int .w64 7) :: Sample.plan.inputs }
    let m : Machine := { budget := { inUse := 8, limit := some 24 } }
    (∃ r, (D.execute plan Sample.table (some Sample.code) columns .cpu m).result = .ok r) ∧
      ∃ e, (D.execute plan Sample.table (some Sample.code) columns .gpu m).result = .error e := by
  intro d D columns plan m
  have hone {outcome : Outcome} (h : outcome.result.toOption.map (·.capacity) = some 1) :
      ∃ r, outcome.result = .ok r ∧ r.capacity = 1 := by
    cases hr : outcome.result with
    | error e =>
      rw [hr] at h
      cases h
    | ok r =>
      rw [hr] at h
      exact ⟨r, rfl, Option.some.inj h⟩
  obtain ⟨hhost, hdevice⟩ := admits_exactly_what_fits D plan Sample.table (some Sample.code)
    columns m
  obtain ⟨r, hr, hcapacity⟩ : ∃ r,
      (D.unlimited plan Sample.table (some Sample.code) columns .cpu m).result = .ok r ∧
        r.capacity = 1 :=
    hone (by decide +kernel)
  obtain ⟨r', hr', hcapacity'⟩ : ∃ r,
      (D.unlimited plan Sample.table (some Sample.code) columns .gpu m).result = .ok r ∧
        r.capacity = 1 :=
    hone (by decide +kernel)
  constructor
  · refine (hhost r hr (by rw [hcapacity]; decide)).succeeds.mpr ?_
    rw [hcapacity]
    rintro limit ⟨⟩
    decide
  · obtain ⟨e, he, -⟩ := (hdevice d r' rfl rfl hr' (by rw [hcapacity']; decide)).refusal
      fun hfits => absurd (hfits.2 7 rfl) (by decide)
    exact ⟨e, he⟩

end Dispatcher

end KernelDispatch
