import KernelDispatch.Proofs.Dispatcher.DeviceRun
import KernelDispatch.Proofs.Dispatcher.HostRun
import KernelDispatch.Proofs.Inputs

/-!
# The account of an execution

An execution that passes the checks in front follows the forecast of its plan up to its kernel,
unless the machine refuses a reservation or an allocation. However it ends, dropping its context
leaves the device memory as it was and nothing reserved but the storage of a result.
-/

namespace KernelDispatch

/-- Bytes that stay reserved for the answer of an execution. -/
def answerFootprint : Except Failure ResultSet → ℕ
  | .ok r => r.storage.footprint
  | .error _ => 0

/-- Answers that a caller cannot tell apart. -/
def SameAnswer : Except Failure ResultSet → Except Failure ResultSet → Prop
  | .ok r, .ok r' => r.SameAs r'
  | .error e, .error e' => e' = e
  | _, _ => False

namespace Dispatcher

variable {D : Dispatcher} {plan : Plan} {table : Table} {code : Option CompiledFunction}
  {columns : ColumnStore} {target : DeviceType} {m : Machine}

/-- An invocation as a whole, on the kind of device that its context is for. -/
theorem meets_runIn (D : Dispatcher) (plan : Plan) (f : CompiledFunction) (columns : ColumnStore)
    (site : Site) (m : Machine) :
    Action.Meets (· = { scope := ⟨{ site }, m⟩ }) (D.runIn plan f columns site.deviceType)
      (D.Answers plan f site (D.forecast plan f columns site) m)
      (D.Fails plan f site (D.forecast plan f columns site) m 0) := by
  -- The inputs belong to the scope, the rest of the invocation is untouched.
  apply Action.meets_bind fun r i => ∃ s, (s.context.site = site ∧ Ledger m 0 s ∧ ∃ bytes,
    Inputs.forecastFrom columns plan.name site.deviceType.memoryLevel D.config.deviceId 0 none
        plan.inputs = .ok (bytes, r.rows) ∧ List.Forall₂ s.Offers r.buffers bytes) ∧
      i = { scope := s }
  · refine Action.meets_on fun t ht => ?_
    subst ht
    apply (Inputs.meets_allFrom plan.inputs 0 none _).weaken (fun _ h => h)
    · rintro r s ⟨hgrows, bytes, hforecast, hoffers⟩
      exact ⟨s, ⟨hgrows.site, hgrows.ledger (.start m site), bytes, hforecast, hoffers⟩, rfl⟩
    · rintro e s ⟨hsettles, hcause⟩
      refine ⟨hsettles (.start m site), Or.inl ⟨rfl, hcause.imp_right fun hforecast => ?_⟩⟩
      exact bind_eq_error_iff.mpr (Or.inl hforecast)
  rintro ⟨buffers, rows⟩
  refine Action.meets_some fun s hs => ?_
  obtain ⟨hsite, hledger, bytes, hforecast, hoffers⟩ := hs
  cases rows with
  | none =>
    apply Action.meets_fail
    rintro i rfl
    refine ⟨hledger, Or.inl ⟨rfl, Or.inr ?_⟩⟩
    exact bind_eq_error_iff.mpr (Or.inr ⟨_, hforecast, rfl⟩)
  | some rows =>
    have hexpected : D.forecast plan f columns site = D.forecastRun plan f bytes rows site := by
      rw [forecast, hforecast]
      rfl
    rw [hexpected]
    cases site with
    | host => exact meets_runOnHost hsite hoffers hledger
    | device d => exact meets_runOnDevice hsite hoffers hledger

theorem prepare_ok {f : CompiledFunction} {context : Context}
    (h : D.prepare plan table code target = .ok (f, context)) :
    code = some f ∧ context = { site := context.site } ∧ context.site.deviceType = target ∧
      ∀ d, context.site = .device d → D.device = some d := by
  obtain ⟨_, -, h⟩ := bind_eq_ok_iff.mp h
  cases code with
  | none => cases h
  | some f' =>
    simp only at h
    split at h
    · cases h
    · obtain ⟨_, -, h⟩ := bind_eq_ok_iff.mp h
      obtain ⟨c, hopen, h⟩ := bind_eq_ok_iff.mp h
      cases h
      cases target with
      | cpu =>
        cases hopen
        exact ⟨rfl, rfl, rfl, fun d hd => nomatch hd⟩
      | gpu =>
        unfold openContext at hopen
        cases hd : D.device with
        | none =>
          rw [hd] at hopen
          cases hopen
        | some d =>
          rw [hd] at hopen
          cases hopen
          exact ⟨rfl, rfl, rfl, fun d' hd' => by cases hd'; rfl⟩

def Outcome.StopsEarly (outcome : Outcome) (expected : Except Failure Forecast) : Prop :=
  ∃ e, outcome.result = .error e ∧ outcome.kernelRuns = [] ∧
    (e.isRefusal = true ∨ expected = .error e)

/-- The kernel has run on what is forecast, with this effect, and its row count is settled. -/
structure Settles (D : Dispatcher) (plan : Plan) (f : CompiledFunction) (site : Site)
    (expected : Except Failure Forecast) (outcome : Outcome) (given : Forecast)
    (effect : KernelEffect) : Prop where
  expected : expected = .ok given
  request : ∃ request, outcome.requests = [request] ∧
    given.capacity = D.initializer.roomFor request.request.rows
  run : ∃ run body, outcome.kernelRuns = [run] ∧ f.bodyFor site.deviceType = some body ∧
    run.view = given.view plan.outputs.length (D.freshCount site) ∧ effect = body run.view
  result : match outcome.result with
    | .ok r => ∃ rows, D.settle plan given.capacity (D.freshCount site) effect site = .ok rows ∧
        r.Shows plan given.capacity rows effect.stores
    | .error e => D.settle plan given.capacity (D.freshCount site) effect site = .error e

section Settled

variable {f : CompiledFunction} {site : Site} {expected : Except Failure Forecast}
  {outcome : Outcome} {given : Forecast} {effect : KernelEffect}

theorem Settles.answers {rows : ℕ} (h : D.Settles plan f site expected outcome given effect)
    (hsettle : D.settle plan given.capacity (D.freshCount site) effect site = .ok rows) :
    ∃ r, outcome.result = .ok r ∧ r.Shows plan given.capacity rows effect.stores := by
  have hresult := h.result
  cases houtcome : outcome.result with
  | ok r =>
    rw [houtcome] at hresult
    obtain ⟨rows', hsettle', hshows⟩ := hresult
    rw [hsettle] at hsettle'
    cases hsettle'
    exact ⟨r, rfl, hshows⟩
  | error e =>
    rw [houtcome] at hresult
    rw [hresult] at hsettle
    cases hsettle

theorem Settles.fails {e : Failure} (h : D.Settles plan f site expected outcome given effect)
    (hsettle : D.settle plan given.capacity (D.freshCount site) effect site = .error e) :
    outcome.result = .error e := by
  have hresult := h.result
  cases houtcome : outcome.result with
  | ok r =>
    rw [houtcome] at hresult
    obtain ⟨rows, hsettle', -⟩ := hresult
    rw [hsettle] at hsettle'
    cases hsettle'
  | error e' =>
    rw [houtcome] at hresult
    rw [hresult] at hsettle
    exact congrArg Except.error (Except.error.inj hsettle)

theorem Settles.shows {r : ResultSet} (h : D.Settles plan f site expected outcome given effect)
    (hr : outcome.result = .ok r) : r.Shows plan given.capacity r.entries effect.stores := by
  have hresult := h.result
  rw [hr] at hresult
  obtain ⟨rows, -, hshows⟩ := hresult
  rwa [hshows.entries]

/-- Runs that are settled alike and have the same stores give the same answer, wherever they ran. -/
theorem Settles.sameAnswer {D' : Dispatcher} {f' : CompiledFunction} {site' : Site}
    {expected' : Except Failure Forecast} {outcome' : Outcome} {given' : Forecast}
    {effect' : KernelEffect} (h : D.Settles plan f site expected outcome given effect)
    (h' : D'.Settles plan f' site' expected' outcome' given' effect')
    (hcapacity : given'.capacity = given.capacity) (hstores : effect'.stores = effect.stores)
    (hsettle : D'.settle plan given.capacity (D'.freshCount site') effect' site' =
      D.settle plan given.capacity (D.freshCount site) effect site) :
    SameAnswer outcome.result outcome'.result := by
  rw [← hcapacity] at hsettle
  cases hsettled : D.settle plan given.capacity (D.freshCount site) effect site with
  | ok rows =>
    obtain ⟨r, hr, hshows⟩ := h.answers hsettled
    rw [← hcapacity] at hsettled
    obtain ⟨r', hr', hshows'⟩ := h'.answers (hsettle.trans hsettled)
    rw [hcapacity, hstores] at hshows'
    rw [hr, hr']
    exact hshows.sameAs hshows'
  | error e =>
    have hr := h.fails hsettled
    rw [← hcapacity] at hsettled
    rw [hr, h'.fails (hsettle.trans hsettled)]
    rfl

end Settled

theorem execute_of_prepare_error {e : Failure}
    (h : D.prepare plan table code target = .error e) :
    D.execute plan table code columns target m = { result := .error e, machine := m } := by
  rw [execute, h]

/-- An execution that has passed the checks in front stops early or is settled, and dropping its
context restores the machine up to the storage of a result. -/
theorem execute_account (columns : ColumnStore) (m : Machine) {f : CompiledFunction}
    {context : Context} (h : D.prepare plan table code target = .ok (f, context)) :
    let outcome := D.execute plan table code columns target m
    let expected := D.forecast plan f columns context.site
    outcome.machine.heap = m.heap ∧
      outcome.machine.budget = { m.budget with
        inUse := m.budget.inUse + BitVec.ofNat 64 (answerFootprint outcome.result) } ∧
      (outcome.StopsEarly expected ∨
        ∃ given effect, D.Settles plan f context.site expected outcome given effect) := by
  obtain ⟨-, hcontext, htarget, -⟩ := prepare_ok h
  rw [execute, h]
  simp only
  rw [hcontext, ← htarget]
  have hmeets := meets_runIn D plan f columns context.site m _ rfl
  rcases hrun : (D.runIn plan f columns context.site.deviceType).run
    { scope := ⟨{ site := context.site }, m⟩ } with ⟨result, i⟩
  rw [hrun] at hmeets
  cases result with
  | ok r =>
    obtain ⟨hledger, given, effect, rows, hran, hsettle, hshows⟩ := hmeets
    exact ⟨hledger.heap_release, hledger.budget_release, Or.inr ⟨given, effect, hran.expected,
      hran.request, hran.run, rows, hsettle, hshows⟩⟩
  | error e =>
    obtain ⟨hledger, hways⟩ := hmeets
    refine ⟨hledger.heap_release, hledger.budget_release, ?_⟩
    rcases hways with ⟨hruns, hcause⟩ | ⟨given, effect, hran, hsettle⟩
    · exact Or.inl ⟨e, rfl, hruns, hcause⟩
    · exact Or.inr ⟨given, effect, hran.expected, hran.request, hran.run, hsettle⟩

theorem settles_of_run {run : KernelRun}
    (hrun : run ∈ (D.execute plan table code columns target m).kernelRuns) :
    ∃ f site given effect, code = some f ∧ site.deviceType = target ∧
      (∀ d, site = .device d → D.device = some d) ∧
      D.Settles plan f site (D.forecast plan f columns site)
        (D.execute plan table code columns target m) given effect := by
  cases hprepare : D.prepare plan table code target with
  | error e =>
    rw [execute_of_prepare_error hprepare] at hrun
    exact absurd hrun List.not_mem_nil
  | ok fc =>
    obtain ⟨f, context⟩ := fc
    obtain ⟨hcode, -, htarget, hdevice⟩ := prepare_ok hprepare
    rcases (execute_account columns m hprepare).2.2 with
      ⟨e, -, hruns, -⟩ | ⟨given, effect, hsettles⟩
    · rw [hruns] at hrun
      exact absurd hrun List.not_mem_nil
    · exact ⟨f, context.site, given, effect, hcode, htarget, hdevice, hsettles⟩

end Dispatcher

end KernelDispatch
