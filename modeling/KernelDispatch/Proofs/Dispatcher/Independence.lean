import KernelDispatch.Proofs.Dispatcher.Agreement
import KernelDispatch.Proofs.Dispatcher.NoLeak
import KernelDispatch.Proofs.Dispatcher.Relimit

/-!
# Invocations influence one another through free memory alone

An execution reads of its machine only whether it grants demands. So an execution that nothing is
refused to has the same answer on every machine with at least as much free. A machine without a
limit on host memory is left by an execution in a state that grants alike, and every execution in a
sequence answers as it does alone.
-/

namespace KernelDispatch

/-- The devices that executions of a dispatcher over these columns allocate on. -/
def Dispatcher.devices (D : Dispatcher) (columns : ColumnStore) : Set Device :=
  {d | D.device = some d ∨ columns.device = some d}

section Devices

variable {D : Dispatcher} {plan : Plan} {f : CompiledFunction} {columns : ColumnStore} {site : Site}
  {x : Demand}

theorem Site.isOf_demand {devices : Set Device} (hsite : ∀ d, site = .device d → d ∈ devices)
    (n : ℕ) : (site.demand n).IsOf devices := by
  cases site with
  | host => trivial
  | device d => exact hsite d rfl

theorem Inputs.isOf_demandsOne {deviceId : DeviceId} {input : InputExpr}
    (hsite : ∀ d, site = .device d → d ∈ D.devices columns)
    (hx : x ∈ demandsOne columns deviceId site input) : x.IsOf (D.devices columns) := by
  cases input with
  | column ref =>
    simp only [demandsOne, ColumnStore.demands] at hx
    split at hx
    · exact absurd hx List.not_mem_nil
    · split at hx
      · rename_i c d _ hdevice
        rw [List.mem_singleton.mp hx]
        exact Or.inr hdevice
      · exact absurd hx List.not_mem_nil
  | constant value =>
    simp only [demandsOne] at hx
    split at hx
    · rw [List.mem_singleton.mp hx]
      exact Site.isOf_demand hsite slotBytes
    · exact absurd hx List.not_mem_nil
  | unresolved description => exact absurd hx List.not_mem_nil

theorem Inputs.isOf_demandsFrom {function : String} {deviceId : DeviceId} {inputs : List InputExpr}
    {index : ℕ} {rows : Option ℕ} (hsite : ∀ d, site = .device d → d ∈ D.devices columns)
    (hx : x ∈ demandsFrom columns function deviceId site index rows inputs) :
    x.IsOf (D.devices columns) := by
  induction inputs generalizing index rows with
  | nil => exact absurd hx List.not_mem_nil
  | cons input rest ih =>
    rcases List.mem_append.mp hx with hone | hrest
    · exact isOf_demandsOne hsite hone
    · obtain ⟨one, -, hrest⟩ := exists_of_mem_demandsAfter hrest
      exact ih hrest

namespace Dispatcher

theorem isOf_demandsRun {inputs rows : ℕ} (hsite : ∀ d, site = .device d → d ∈ D.devices columns)
    (hx : x ∈ D.demandsRun plan f inputs rows site) : x.IsOf (D.devices columns) := by
  cases site with
  | host =>
    obtain ⟨body, -, hx⟩ := exists_of_mem_demandsAfter hx
    obtain ⟨capacity, -, hx⟩ := exists_of_mem_demandsAfter hx
    rw [List.mem_singleton.mp hx]
    trivial
  | device d =>
    have hd (n : ℕ) : (Demand.device d n).IsOf (D.devices columns) := hsite d rfl
    obtain ⟨kernel, -, hx⟩ := exists_of_mem_demandsAfter hx
    rcases List.mem_cons.mp hx with rfl | hx
    · exact hd _
    obtain ⟨told, -, hx⟩ := exists_of_mem_demandsAfter hx
    rcases List.mem_append.mp hx with hcells | hx
    · simp only [List.mem_cons, List.not_mem_nil, or_false, or_self] at hcells
      rw [hcells]
      exact hd _
    rcases List.mem_append.mp hx with houtput | hx
    · obtain ⟨capacity, -, houtput⟩ := exists_of_mem_demandsAfter houtput
      rw [List.mem_singleton.mp houtput]
      trivial
    obtain ⟨capacity, -, hx⟩ := exists_of_mem_demandsAfter hx
    simp only [List.mem_cons, List.not_mem_nil, or_false] at hx
    rcases hx with rfl | rfl | rfl
    · exact hd _
    · exact hd _
    · exact hd _

theorem isOf_demands (hsite : ∀ d, site = .device d → d ∈ D.devices columns)
    (hx : x ∈ D.demands plan f columns site) : x.IsOf (D.devices columns) := by
  rcases List.mem_append.mp hx with hinputs | hrun
  · exact Inputs.isOf_demandsFrom hsite hinputs
  · obtain ⟨⟨bytes, rows⟩, -, hrun⟩ := exists_of_mem_demandsAfter hrun
    cases rows with
    | none => exact absurd hrun List.not_mem_nil
    | some rows => exact isOf_demandsRun hsite hrun

end Dispatcher

end Devices

namespace Dispatcher

variable {D D' : Dispatcher} {plan : Plan} {table : Table} {code : Option CompiledFunction}
  {f : CompiledFunction} {columns : ColumnStore} {target : DeviceType} {m m' : Machine}
  {site site' : Site}

def callDemands (D : Dispatcher) (plan : Plan) (table : Table) (code : Option CompiledFunction)
    (columns : ColumnStore) (target : DeviceType) : List Demand :=
  demandsAfter (D.prepare plan table code target) fun p => D.demands plan p.1 columns p.2.site

/-- The same kernel has the same effect on what is forecast, and is settled alike where effects are
settled alike. -/
theorem Settles.sameAnswer_of_settle {expected expected' : Except Failure Forecast}
    {outcome outcome' : Outcome} {given : Forecast} {effect effect' : KernelEffect}
    (h : D.Settles plan f site expected outcome given effect)
    (h' : D'.Settles plan f site' expected' outcome' given effect')
    (htype : site'.deviceType = site.deviceType) (hfresh : D'.freshCount site' = D.freshCount site)
    (hsettle : ∀ effect, D'.settle plan given.capacity (D'.freshCount site') effect site' =
      D.settle plan given.capacity (D.freshCount site) effect site) :
    SameAnswer outcome.result outcome'.result := by
  obtain ⟨run, body, -, hbody, hview, heffect⟩ := h.run
  obtain ⟨run', body', -, hbody', hview', heffect'⟩ := h'.run
  rw [htype, hbody] at hbody'
  cases hbody'
  rw [hfresh, ← hview] at hview'
  have hsame : effect' = effect := by rw [heffect', heffect, hview']
  refine h.sameAnswer h' rfl (by rw [hsame]) ?_
  rw [hsame]
  exact hsettle effect

theorem settle_relimit (limits : ℕ → Option ℕ) (capacity : ℕ) (before : Word)
    (effect : KernelEffect) :
    (D.relimit limits).settle plan capacity before effect (site.relimit limits) =
      D.settle plan capacity before effect site := by
  cases site <;> rfl

theorem freshCount_relimit (limits : ℕ → Option ℕ) :
    (D.relimit limits).freshCount (site.relimit limits) = D.freshCount site := by
  cases site <;> rfl

/-- Invocations of one code whose demands are answered alike, and of which the same is forecast,
have the same answer. -/
theorem execute_sameAnswer {columns' : ColumnStore} {context context' : Context}
    (hprepare : D.prepare plan table code target = .ok (f, context))
    (hprepare' : D'.prepare plan table code target = .ok (f, context'))
    (hgranted :
      (∃ m₁ m₂, Machine.grantAll (D.demands plan f columns context.site) m = .ok m₁ ∧
        Machine.grantAll (D'.demands plan f columns' context'.site) m' = .ok m₂) ∨
      ∃ e, Machine.grantAll (D.demands plan f columns context.site) m = .error e ∧
        Machine.grantAll (D'.demands plan f columns' context'.site) m' = .error e)
    (hforecast : D'.forecast plan f columns' context'.site = D.forecast plan f columns context.site)
    (htype : context'.site.deviceType = context.site.deviceType)
    (hfresh : D'.freshCount context'.site = D.freshCount context.site)
    (hsettle : ∀ capacity before effect, D'.settle plan capacity before effect context'.site =
      D.settle plan capacity before effect context.site) :
    SameAnswer (D.execute plan table code columns target m).result
      (D'.execute plan table code columns' target m').result := by
  have hcases := execute_cases columns m hprepare
  have hcases' := execute_cases columns' m' hprepare'
  rw [hforecast] at hcases'
  rcases hgranted with ⟨m₁, m₂, hgranted, hgranted'⟩ | ⟨e, hrefused, hrefused'⟩
  · rw [hgranted] at hcases
    rw [hgranted'] at hcases'
    cases hexpected : D.forecast plan f columns context.site with
    | error e =>
      rw [hexpected] at hcases hcases'
      rw [hcases.1, hcases'.1]
      rfl
    | ok given =>
      rw [hexpected] at hcases hcases'
      obtain ⟨effect, run, hsettles, -⟩ := hcases
      obtain ⟨effect', run', hsettles', -⟩ := hcases'
      refine hsettles.sameAnswer_of_settle hsettles' htype hfresh fun effect => ?_
      rw [hfresh, hsettle]
  · rw [hrefused] at hcases
    rw [hrefused'] at hcases'
    rw [hcases.1, hcases'.1]
    rfl

/-- An execution that nothing is refused to has the same answer wherever as much is free. -/
theorem execute_roomier {limits : ℕ → Option ℕ} (hroom : m.Roomier limits (D.devices columns) m')
    (hbytes : m.budget.inUse.toNat +
      hostBytesOf (D.callDemands plan table code columns target) < sizeBound)
    (haddresses : m'.heap.top +
      addressesOf (D.callDemands plan table code columns target) ≤ addressSpace)
    (hfree : (D.execute plan table code columns target m).Unrefused) :
    SameAnswer (D.execute plan table code columns target m).result
      ((D.relimit limits).execute plan table code (columns.relimit limits) target m').result := by
  have hprepare' := D.prepare_relimit limits plan table code target
  cases hprepare : D.prepare plan table code target with
  | error e =>
    rw [hprepare] at hprepare'
    rw [execute_of_prepare_error hprepare, execute_of_prepare_error hprepare']
    rfl
  | ok fc =>
    obtain ⟨f, context⟩ := fc
    rw [hprepare] at hprepare'
    rw [callDemands, hprepare, demandsAfter_ok] at hbytes haddresses
    refine execute_sameAnswer hprepare hprepare' (Or.inl ?_)
      (D.forecast_relimit limits plan f columns context.site)
      (context.site.deviceType_relimit limits) (freshCount_relimit limits)
      (settle_relimit limits)
    have hcases := execute_cases columns m hprepare
    cases hgranted : Machine.grantAll (D.demands plan f columns context.site) m with
    | error e =>
      rw [hgranted] at hcases
      exact nomatch (hfree e hcases.1).symm.trans (Machine.grantAll_error hgranted)
    | ok m₁ =>
      obtain ⟨-, -, -, hdevice⟩ := prepare_ok hprepare
      obtain ⟨m₂, hgranted'⟩ := hroom.grantAll
        (fun x hx => isOf_demands (fun d hd => Or.inl (hdevice d hd)) hx) hbytes haddresses hgranted
      rw [← demands_relimit] at hgranted'
      exact ⟨m₁, m₂, rfl, hgranted'⟩

/-- Machines that grant alike give the same answers, refusals included. -/
theorem execute_alike (h : m.Alike m') :
    SameAnswer (D.execute plan table code columns target m).result
      (D.execute plan table code columns target m').result := by
  cases hprepare : D.prepare plan table code target with
  | error e =>
    rw [execute_of_prepare_error hprepare, execute_of_prepare_error hprepare]
    rfl
  | ok fc =>
    obtain ⟨f, context⟩ := fc
    refine execute_sameAnswer hprepare hprepare ?_ rfl rfl rfl fun _ _ _ => rfl
    cases hgranted : Machine.grantAll (D.demands plan f columns context.site) m with
    | error e => exact Or.inr ⟨e, rfl, h.grantAll_error hgranted⟩
    | ok m₁ =>
      obtain ⟨m₂, hgranted', -⟩ := h.grantAll_ok hgranted
      exact Or.inl ⟨m₁, m₂, rfl, hgranted'⟩

end Dispatcher

namespace History

variable {h₀ h : History} {m : Machine}

/-- The columns are those of `h₀`, and a call is answered as it is by `h₀`. -/
def AnswersAs (h₀ : History) (e : Event) (p : Option Dispatcher.Outcome × History) : Prop :=
  p.2.columns = h₀.columns ∧
    match e with
    | .call c => ∃ outcome, p.1 = some outcome ∧
        SameAnswer (h₀.outcome c).result outcome.result
    | .drop _ => p.1 = none

theorem columns_step (h : History) (e : Event) : (h.step e).2.columns = h.columns := by
  cases e with
  | call c =>
    change (h.call c).2.columns = h.columns
    rw [call_eq]
    split_ifs <;> rfl
  | drop position =>
    change (h.drop position).columns = h.columns
    unfold History.drop
    split <;> rfl

theorem Balanced.alike (hh : Balanced m h) (hlimit : m.budget.limit = none) :
    m.Alike h.machine where
  budget := ⟨hh.limit, Or.inl hlimit⟩
  extents := by rw [hh.heap]

theorem answersAs_step (hcolumns : h.columns = h₀.columns) (halike : h₀.machine.Alike h.machine)
    (e : Event) : h₀.AnswersAs e (h.step e) := by
  refine ⟨(columns_step h e).trans hcolumns, ?_⟩
  cases e with
  | call c =>
    have houtcome : (h.call c).1 = h.outcome c := by
      unfold History.call
      simp only
      split_ifs <;> rfl
    refine ⟨h.outcome c, congrArg some houtcome, ?_⟩
    unfold outcome
    rw [hcolumns]
    exact Dispatcher.execute_alike halike
  | drop position => rfl

theorem Balanced.answersAs (hh : Balanced h₀.machine h) (hcolumns : h.columns = h₀.columns)
    (hlimit : h₀.machine.budget.limit = none) (events : List Event) :
    List.Forall₂ h₀.AnswersAs events (History.run events h) := by
  induction events generalizing h with
  | nil => exact .nil
  | cons e rest ih =>
    exact .cons (answersAs_step hcolumns (hh.alike hlimit) e)
      (ih (hh.step e) ((columns_step h e).trans hcolumns))

end History

/-- An execution that nothing is refused to has the same answer in every world with the same columns
and the same devices, under whatever limits, that has at least as much free, as long as sums stay
within words. Where host memory is not limited, every execution in a sequence has the answer that it
has alone, and the columns stay as they are. -/
theorem only_room_matters :
    (∀ (D : Dispatcher) (plan : Plan) (table : Table) (code : Option CompiledFunction)
        (columns : ColumnStore) (target : DeviceType) (m m' : Machine) (limits : ℕ → Option ℕ),
      let demands := D.callDemands plan table code columns target
      let outcome := D.execute plan table code columns target m
      let outcome' :=
        (D.relimit limits).execute plan table code (columns.relimit limits) target m'
      m.Roomier limits (D.devices columns) m' →
      m.budget.inUse.toNat + hostBytesOf demands < sizeBound →
      m'.heap.top + addressesOf demands ≤ addressSpace →
        (∀ r, outcome.result = .ok r → ∃ r', outcome'.result = .ok r' ∧ r.SameAs r') ∧
        ∀ e, outcome.result = .error e → e.isRefusal = false → outcome'.result = .error e) ∧
    ∀ (columns : ColumnStore) (m : Machine) (events : List Event), m.budget.limit = none →
      List.Forall₂ (History.AnswersAs { columns, machine := m }) events
        (History.run events { columns, machine := m }) := by
  constructor
  · intro D plan table code columns target m m' limits demands outcome outcome' hroom hbytes
      haddresses
    have hsame (hfree : outcome.Unrefused) : SameAnswer outcome.result outcome'.result :=
      Dispatcher.execute_roomier hroom hbytes haddresses hfree
    constructor
    · intro r hr
      have hanswer := hsame fun e he => nomatch hr.symm.trans he
      rw [hr] at hanswer
      cases hr' : outcome'.result with
      | ok r' =>
        rw [hr'] at hanswer
        exact ⟨r', rfl, hanswer⟩
      | error e =>
        rw [hr'] at hanswer
        cases hanswer
    · intro e he hrefusal
      have hanswer := hsame fun e' he' => by rwa [← Except.error.inj (he.symm.trans he')]
      rw [he] at hanswer
      cases hr' : outcome'.result with
      | ok r' =>
        rw [hr'] at hanswer
        cases hanswer
      | error e' =>
        rw [hr'] at hanswer
        exact congrArg Except.error hanswer
  · intro columns m events hlimit
    exact (History.Balanced.start columns m).answersAs rfl hlimit events

/-- A budget of one word, and one of four words of which two are in use. -/
theorem only_room_matters_counting :
    ∃ r r', (Sample.dispatcher.execute Sample.plan Sample.table (some Sample.code) Sample.columns
        .gpu { budget := { limit := some 8 } }).result = .ok r ∧
      ((Sample.dispatcher.relimit fun _ => none).execute Sample.plan Sample.table (some Sample.code)
        (Sample.columns.relimit fun _ => none) .gpu
        { budget := { inUse := 16, limit := some 32 } }).result = .ok r' ∧ r.SameAs r' := by
  have hok : (Sample.dispatcher.execute Sample.plan Sample.table (some Sample.code) Sample.columns
      .gpu { budget := { limit := some 8 } }).result.toOption.isSome = true := by decide +kernel
  have hroom : Machine.Roomier (fun _ => none) (Sample.dispatcher.devices Sample.columns)
      { budget := { limit := some 8 } } { budget := { inUse := 16, limit := some 32 } } :=
    ⟨Budget.freeBytes_le_iff.mpr (by simp), fun d _ => le_top⟩
  cases hresult : (Sample.dispatcher.execute Sample.plan Sample.table (some Sample.code)
      Sample.columns .gpu { budget := { limit := some 8 } }).result with
  | error e =>
    rw [hresult] at hok
    cases hok
  | ok r =>
    obtain ⟨r', hr', hsame⟩ := (only_room_matters.1 Sample.dispatcher Sample.plan Sample.table
      (some Sample.code) Sample.columns .gpu _ _ _ hroom (by decide +kernel) (by decide +kernel)).1
        r hresult
    exact ⟨r, r', rfl, hr', hsame⟩

end KernelDispatch
