import KernelDispatch.Proofs.Dispatcher.Independence

/-!
# The sentinel cannot be told from an answer

A row count cell that a kernel leaves alone still holds the sentinel. Settings that pass their check
have a negative one, and all that is asked of a count is whether it is negative. So two executions
whose settings differ in the sentinel alone make the same demands, give their kernels the same bytes
and settle the same count, unless the cell was left alone; then both fall back to the capacity, or
both fail with reports that differ in the value of the count.
-/

namespace KernelDispatch

def Config.withSentinel (c : Config) (sentinel : Word) : Config := { c with sentinel }

def Dispatcher.withSentinel (D : Dispatcher) (sentinel : Word) : Dispatcher :=
  { D with config := D.config.withSentinel sentinel }

/-- The kernel does the same whatever it finds in the row count cell. -/
def KernelBody.IgnoresCount (body : KernelBody) : Prop :=
  ∀ view sentinel, body { view with countCell := sentinel } = body view

/-- The report with the count in it blanked. -/
def Report.withoutCount (r : Report) : Report := r.mapField "output_row_count" fun _ => ""

/-- Answers that a caller cannot tell apart, but for the count that a report shows. -/
def AlikeButCount : Except Failure ResultSet → Except Failure ResultSet → Prop
  | .ok r, .ok r' => r.SameAs r'
  | .error e, .error e' => e'.kind = e.kind ∧ e'.report.message = e.report.message ∧
      e'.report.fields.map Prod.fst = e.report.fields.map Prod.fst ∧
      e'.report.withoutCount = e.report.withoutCount
  | _, _ => False

theorem alikeButCount_of_sameAnswer {x y : Except Failure ResultSet} (h : SameAnswer x y) :
    AlikeButCount x y := by
  cases x with
  | ok r =>
    cases y with
    | ok r' => exact h
    | error e' => exact h.elim
  | error e =>
    cases y with
    | ok r' => exact h.elim
    | error e' =>
      have hsame : e' = e := h
      rw [hsame]
      exact ⟨rfl, rfl, rfl, rfl⟩

theorem alikeButCount_rowCountUnset (function : String) (reported reported' : Word) :
    AlikeButCount (.error (.rowCountUnset function reported))
      (.error (.rowCountUnset function reported')) := by
  simp [AlikeButCount, Failure.kind, Failure.report, Report.contractViolation, Report.new,
    Report.withKind, Report.withField, Report.kind, Report.fields, Report.message,
    Report.withoutCount, Report.mapField]

theorem Config.sentinel_neg {c : Config} (h : c.validate = .ok ()) : c.sentinel.toInt < 0 := by
  unfold validate at h
  split_ifs at h with hsign
  omega

namespace Dispatcher

variable {D : Dispatcher} {sentinel : Word} {plan : Plan} {table : Table}
  {code : Option CompiledFunction} {f : CompiledFunction} {columns : ColumnStore}
  {target : DeviceType} {m : Machine} {site : Site}

theorem prepare_withSentinel (hvalid : D.config.validate = .ok ())
    (hvalid' : (D.withSentinel sentinel).config.validate = .ok ()) :
    (D.withSentinel sentinel).prepare plan table code target =
      D.prepare plan table code target := by
  unfold prepare
  rw [hvalid, hvalid']
  rfl

theorem demands_withSentinel :
    (D.withSentinel sentinel).demands plan f columns site = D.demands plan f columns site := by
  cases site <;> rfl

theorem forecast_withSentinel :
    (D.withSentinel sentinel).forecast plan f columns site = D.forecast plan f columns site := by
  cases site <;> rfl

theorem settle_withSentinel_of_count {capacity : ℕ} {before before' count : Word}
    {effect : KernelEffect} (hcount : effect.count = some count) :
    (D.withSentinel sentinel).settle plan capacity before' effect site =
      D.settle plan capacity before effect site := by
  cases site with
  | host => rw [settle, settle, hcount]; rfl
  | device d => rw [settle, settle, hcount]; rfl

/-- A cell that was left alone is settled by the sign of what was in it. -/
theorem settle_withSentinel_of_unset (plan : Plan) (capacity : ℕ) (d : Device)
    {effect : KernelEffect} (hvalid : D.config.validate = .ok ())
    (hvalid' : (D.withSentinel sentinel).config.validate = .ok ()) (hcount : effect.count = none) :
    (D.withSentinel sentinel).settle plan capacity sentinel effect (.device d) =
        D.settle plan capacity D.config.sentinel effect (.device d) ∨
      D.settle plan capacity D.config.sentinel effect (.device d) =
          .error (.rowCountUnset plan.name D.config.sentinel) ∧
        (D.withSentinel sentinel).settle plan capacity sentinel effect (.device d) =
          .error (.rowCountUnset plan.name sentinel) := by
  have hneg := Config.sentinel_neg hvalid
  have hneg' : sentinel.toInt < 0 := Config.sentinel_neg hvalid'
  have hsame : (D.withSentinel sentinel).synchronize d = D.synchronize d := rfl
  simp only [settle, hcount, Option.getD_none, reportedRows, if_pos hneg, if_pos hneg', hsame]
  cases D.synchronize d with
  | error e => exact Or.inl rfl
  | ok _ =>
    cases hpolicy : D.config.unsetRowCount with
    | fallbackToCapacity =>
      have hpolicy' : (D.withSentinel sentinel).config.unsetRowCount = .fallbackToCapacity :=
        hpolicy
      rw [hpolicy']
      exact Or.inl rfl
    | strict =>
      have hpolicy' : (D.withSentinel sentinel).config.unsetRowCount = .strict := hpolicy
      rw [hpolicy']
      exact Or.inr ⟨rfl, rfl⟩

/-- Runs of a kernel that ignores the row count cell, on the same bytes, are answered alike. -/
theorem Settles.alikeButCount {expected expected' : Except Failure Forecast}
    {outcome outcome' : Outcome} {given : Forecast} {effect effect' : KernelEffect}
    (hvalid : D.config.validate = .ok ())
    (hvalid' : (D.withSentinel sentinel).config.validate = .ok ())
    (hignores : ∀ kernel, f.device = some kernel → kernel.body.IgnoresCount)
    (h : D.Settles plan f site expected outcome given effect)
    (h' : (D.withSentinel sentinel).Settles plan f site expected' outcome' given effect') :
    AlikeButCount outcome.result outcome'.result := by
  cases site with
  | host =>
    refine alikeButCount_of_sameAnswer (h.sameAnswer_of_settle h' rfl rfl fun effect => ?_)
    rfl
  | device d =>
    obtain ⟨run, body, -, hbody, hview, rfl⟩ := h.run
    obtain ⟨run', body', -, hbody', hview', rfl⟩ := h'.run
    obtain rfl : body = body' := Option.some.inj (hbody.symm.trans hbody')
    obtain ⟨kernel, hkernel, rfl⟩ := Option.map_eq_some_iff.mp hbody
    have heffect : kernel.body run'.view = kernel.body run.view := by
      rw [hview, hview']
      exact hignores kernel hkernel (given.view plan.outputs.length D.config.sentinel) sentinel
    cases hcount : (kernel.body run.view).count with
    | some count =>
      refine alikeButCount_of_sameAnswer (h.sameAnswer h' rfl (by rw [heffect]) ?_)
      rw [heffect]
      exact settle_withSentinel_of_count hcount
    | none =>
      rcases settle_withSentinel_of_unset plan given.capacity d hvalid hvalid' hcount with hsame
        | ⟨hunset, hunset'⟩
      · refine alikeButCount_of_sameAnswer (h.sameAnswer h' rfl (by rw [heffect]) ?_)
        rw [heffect]
        exact hsame
      · rw [← heffect] at hunset'
        rw [h.fails hunset, h'.fails hunset']
        exact alikeButCount_rowCountUnset _ _ _

theorem execute_alikeButCount (hvalid : D.config.validate = .ok ())
    (hvalid' : (D.withSentinel sentinel).config.validate = .ok ())
    (hignores : ∀ f kernel, code = some f → f.device = some kernel → kernel.body.IgnoresCount) :
    AlikeButCount (D.execute plan table code columns target m).result
      ((D.withSentinel sentinel).execute plan table code columns target m).result := by
  have hsame : (D.withSentinel sentinel).prepare plan table code target =
      D.prepare plan table code target := prepare_withSentinel hvalid hvalid'
  cases hprepare : D.prepare plan table code target with
  | error e =>
    rw [execute_of_prepare_error hprepare, execute_of_prepare_error (hsame.trans hprepare)]
    exact ⟨rfl, rfl, rfl, rfl⟩
  | ok fc =>
    obtain ⟨f, context⟩ := fc
    obtain ⟨hcode, -⟩ := prepare_ok hprepare
    have hcases := execute_cases columns m hprepare
    have hcases' := execute_cases columns m (hsame.trans hprepare)
    rw [demands_withSentinel, forecast_withSentinel] at hcases'
    cases hgranted : Machine.grantAll (D.demands plan f columns context.site) m with
    | error e =>
      rw [hgranted] at hcases hcases'
      rw [hcases.1, hcases'.1]
      exact ⟨rfl, rfl, rfl, rfl⟩
    | ok m₁ =>
      rw [hgranted] at hcases hcases'
      cases hforecast : D.forecast plan f columns context.site with
      | error e =>
        rw [hforecast] at hcases hcases'
        rw [hcases.1, hcases'.1]
        exact ⟨rfl, rfl, rfl, rfl⟩
      | ok given =>
        rw [hforecast] at hcases hcases'
        obtain ⟨effect, run, hsettles, -⟩ := hcases
        obtain ⟨effect', run', hsettles', -⟩ := hcases'
        exact hsettles.alikeButCount hvalid hvalid' (fun kernel => hignores f kernel hcode)
          hsettles'

/-- Two executions whose settings pass their check and differ in the sentinel alone, of code whose
device kernel ignores what is in the row count cell: both have the same result, or both fail with
the same report but for the value of the count in it. They leave the same memory in use. -/
theorem sentinel_unobservable (D : Dispatcher) (sentinel : Word) (plan : Plan) (table : Table)
    (code : Option CompiledFunction) (columns : ColumnStore) (target : DeviceType) (m : Machine)
    (hvalid : D.config.validate = .ok ())
    (hvalid' : (D.withSentinel sentinel).config.validate = .ok ())
    (hignores : ∀ f kernel, code = some f → f.device = some kernel → kernel.body.IgnoresCount) :
    let outcome := D.execute plan table code columns target m
    let outcome' := (D.withSentinel sentinel).execute plan table code columns target m
    AlikeButCount outcome.result outcome'.result ∧
      outcome'.machine.heap = outcome.machine.heap ∧
      outcome'.machine.budget = outcome.machine.budget := by
  intro outcome outcome'
  have halike : AlikeButCount outcome.result outcome'.result :=
    execute_alikeButCount hvalid hvalid' hignores
  have hbytes : answerBytes outcome'.result = answerBytes outcome.result := by
    cases hr : outcome.result with
    | ok r =>
      cases hr' : outcome'.result with
      | ok r' =>
        rw [hr, hr'] at halike
        simp only [answerBytes, ResultSet.heldBytes, ResultSet.columnCount, halike.types,
          halike.capacity]
      | error e' =>
        rw [hr, hr'] at halike
        exact halike.elim
    | error e =>
      cases hr' : outcome'.result with
      | ok r' =>
        rw [hr, hr'] at halike
        exact halike.elim
      | error e' => rfl
  obtain ⟨hheap, hlimit, hinUse⟩ := D.execute_machine plan table code columns target m
  obtain ⟨hheap', hlimit', hinUse'⟩ :=
    (D.withSentinel sentinel).execute_machine plan table code columns target m
  refine ⟨halike, hheap'.trans hheap.symm, ?_⟩
  rw [← hbytes] at hinUse
  have hcount := hinUse'.trans hinUse.symm
  have hmost := hlimit'.trans hlimit.symm
  cases hbudget : outcome.machine.budget
  cases hbudget' : outcome'.machine.budget
  simp_all [outcome, outcome']

/-- A kernel that leaves the row count cell alone, under settings that refuse that: the failure is
the same whichever of two sentinels was in the cell. -/
theorem sentinel_unobservable_silent :
    let D : Dispatcher := { Sample.dispatcher with config := { unsetRowCount := .strict } }
    let code : CompiledFunction := { device := some ⟨"k", fun _ => {}, false⟩ }
    let outcome := D.execute Sample.plan Sample.table (some code) Sample.columns .gpu {}
    let outcome' := (D.withSentinel 0x8000000000000000).execute Sample.plan Sample.table (some code)
      Sample.columns .gpu {}
    outcome.result.toOption.isNone ∧ AlikeButCount outcome.result outcome'.result := by
  intro D code outcome outcome'
  have hvalid : D.config.validate = .ok () := rfl
  have hvalid' : (D.withSentinel 0x8000000000000000).config.validate = .ok () := rfl
  have hignores : ∀ f kernel, some code = some f → f.device = some kernel →
      kernel.body.IgnoresCount := by
    intro f kernel hf hkernel view sentinel
    cases hf
    cases hkernel
    rfl
  refine ⟨by decide +kernel, ?_⟩
  exact (sentinel_unobservable D 0x8000000000000000 Sample.plan Sample.table (some code)
    Sample.columns .gpu {} hvalid hvalid' hignores).1

end Dispatcher

end KernelDispatch
