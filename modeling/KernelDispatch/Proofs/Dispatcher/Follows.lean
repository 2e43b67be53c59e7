import KernelDispatch.Proofs.Dispatcher.Demands
import KernelDispatch.Proofs.Dispatcher.Execute
import KernelDispatch.Proofs.Inputs.Placement

/-!
# Executions follow their demands

An invocation is followed once more from its inputs to its kernel, this time by what it asks of the
machine. What is learnt about the kernel's run on the way is where a device kernel finds its memory.
-/

namespace KernelDispatch.Dispatcher

variable {D : Dispatcher} {plan : Plan} {code : CompiledFunction} {inputs : List Buffer}
  {bytes : List Bytes} {rows : ℕ} {d : Device} {capacity : ℕ} {o : OutputBuffers}
  {s s₃ : Scope} {i₀ : Invocation}

section Host

variable {body : KernelBody}

theorem follows_callHost (hsite : s.context.site = .host)
    (hoffers : List.Forall₂ s.Offers inputs bytes) (ho : D.Allocated plan s rows capacity o i₀) :
    i₀.Follows [] (·.launch = none) (callHost plan inputs rows body o) := by
  rw [← demandsAfter_nil (kernelRows rows)]
  refine Invocation.follows_check ho.runs (fun e he => ?_) fun told htold => ?_
  · exact Failure.not_refusal_of_precedesKernel (kernelRows_checks rows e he)
  let f : Forecast := { inputs := bytes, rows, capacity }
  have hview : hostView inputs told o i₀ = .ok (f.view plan.outputs.length (-1)) :=
    hostView_eq ho.zeroed hsite hoffers ho.context (eq_of_kernelRows htold)
  let run : KernelRun := { view := f.view plan.outputs.length (-1) }
  have hseen : run.launch = none := rfl
  refine Action.meets_passed hview (Action.meets_update_bind ?_)
  rw [ho.runs]
  refine Invocation.follows_after_run ?_ hseen
  apply Action.meets_check
  · rintro i r rfl -
    rfl
  · rintro i e rfl -
    rfl

theorem follows_runOnHost (hsite : s.context.site = .host)
    (hoffers : List.Forall₂ s.Offers inputs bytes) (n : ℕ) :
    Invocation.Follows { scope := s } (D.demandsRun plan code n rows .host) (·.launch = none)
      (D.runOnHost plan inputs rows code) := by
  refine Invocation.follows_check rfl (fun e he => ?_) fun body _ => ?_
  · exact Failure.not_refusal_of_precedesKernel (code.hostBody_checks e he)
  have htype : s.context.site.deviceType = .cpu := by rw [hsite]; rfl
  have hdemands := D.allocateOutput_demands plan s inputs rows .cpu htype
  rw [hsite] at hdemands
  rw [← List.append_nil (demandsAfter _ _)]
  refine Invocation.Follows.bind (D.meets_allocateOutput plan s inputs rows .cpu htype)
    hdemands ?_ ?_
  · rintro e i ⟨-, hruns, -⟩
    exact ⟨hruns, fun _ => rfl⟩
  · rintro o i ⟨capacity, ho⟩
    exact (follows_callHost hsite hoffers ho).onFailure

end Host

section Device

variable {told : Word} {inputArray rowCount errorCell : Address} {n : ℕ}

/-- The kernel has found everything staged in front of `older` blocks. -/
def FindsStaged (D : Dispatcher) (plan : Plan) (d : Device) (inputs : List Buffer) (rows : ℕ)
    (older : List Block) (run : KernelRun) : Prop :=
  ∃ capacity told params storage memory,
    D.forecastCapacity plan (.device d) rows = .ok capacity ∧ kernelRows rows = .ok told ∧
    run.launch = some
      ⟨params, ⟨inputs.map (·.size), plan.outputs.length, capacity⟩, memory⟩ ∧
    params.view ⟨inputs.map (·.size), plan.outputs.length, capacity⟩ memory = .ok run.view ∧
    (D.stagedMemory plan capacity d inputs told params storage older).Holds memory

theorem stageWith_demands {src : Bytes} (hsite : i₀.scope.context.site = .device d)
    (hlen : src.length ≤ n) :
    (Invocation.onScope (Scope.allocDeviceWith n src)).Meets (· = i₀)
      (fun _ i => i₀.scope.machine.Grants [.device d n] i.scope.machine)
      fun e _ => i₀.scope.machine.Stops [.device d n] e :=
  Invocation.demands_onScope (Scope.allocDeviceWith_demands hsite hlen)

theorem stageMirror_demands {dims : LaunchDims} (hsite : i₀.scope.context.site = .device d)
    (ho : o.Zeroed plan capacity) :
    (Invocation.onScope (o.setUpMirror dims)).Meets (· = i₀)
      (fun _ i => i₀.scope.machine.Grants
        [.device d (max (8 * (plan.outputs.length * capacity)) slotBytes),
          .device d (max (8 * plan.outputs.length) slotBytes)] i.scope.machine)
      fun e _ => i₀.scope.machine.Stops
        [.device d (max (8 * (plan.outputs.length * capacity)) slotBytes),
          .device d (max (8 * plan.outputs.length) slotBytes)] e := by
  have hcopied : (List.replicate (8 * (plan.outputs.length * capacity)) (0 : UInt8)).length ≤
      max (8 * (plan.outputs.length * capacity)) slotBytes := by
    rw [List.length_replicate]
    exact le_max_left _ _
  apply Invocation.demands_onScope
  rw [setUpMirror_eq ho, ← List.singleton_append]
  refine Scope.Demands.bind (Scope.allocDeviceWith_demands hsite hcopied)
    (meets_allocDeviceWith hsite hcopied) ?_ ?_
  · rintro e s ⟨hrefusal, -⟩ he
    exact nomatch hrefusal.symm.trans he
  · intro storage s hstages
    have harray := (length_columnPointers storage plan.outputs.length capacity).le
    exact (Scope.allocDeviceWith_demands (hstages.site hsite)
      (harray.trans (le_max_left _ _))).map _

/-- A launch that is refused leaves no run, one that is taken leaves the run that it records. -/
theorem follows_launch {kernel : DeviceKernel} {params : KernelParams} {shape : KernelShape}
    {seen : KernelRun → Prop} {view : KernelView} {heap : Heap} {x : Action Invocation ResultSet}
    (hruns : i₀.kernelRuns = []) (hview : params.view shape i₀.scope.machine.heap = .ok view)
    (happly : params.apply shape i₀.scope.machine.heap (kernel.body view) = .ok heap)
    (hx : ∀ i run, i.kernelRuns = [run] →
      x.Meets (· = i) (fun _ i => i.kernelRuns = [run]) fun _ i => i.kernelRuns = [run])
    (hseen : seen { view, launch := some { params, shape, memory := i₀.scope.machine.heap } }) :
    i₀.Follows [] seen (D.launch plan kernel params shape >>= fun _ => x) := by
  refine (meets_launch hview happly).bind ?_ fun _ => ?_
  · rintro e i ⟨hlaunch, rfl⟩
    refine Or.inl ⟨hruns, .checked (.nil (.refl _)) ?_⟩
    exact Failure.not_refusal_of_precedesKernel (D.forecastLaunch_checks plan kernel e hlaunch)
  · rintro i ⟨-, rfl⟩
    let run : KernelRun :=
      { view, launch := some { params, shape, memory := i₀.scope.machine.heap } }
    have hrun : i₀.kernelRuns ++ [run] = [run] := by rw [hruns, List.nil_append]
    have hreaches {i : Invocation} (hi : i.kernelRuns = [run]) :
        i.Reaches i₀.scope.machine [] seen := ⟨⟨_, .nil (.refl _)⟩, run, hi, hseen⟩
    refine (hx _ run hrun).weaken (fun _ h => h) ?_ ?_ _ rfl
    · exact fun r i hi => hreaches hi
    · exact fun e i hi => Or.inr (hreaches hi)

theorem follows_runStaged {kernel : DeviceKernel} (hsite : s.context.site = .device d)
    (hoffers : List.Forall₂ s.Offers inputs bytes) (htold : kernelRows rows = .ok told)
    (hcells : StagesCells inputs told d s inputArray rowCount errorCell s₃)
    (ho : D.Allocated plan s₃ rows capacity o i₀) :
    i₀.Follows [.device d slotBytes,
        .device d (max (8 * (plan.outputs.length * capacity)) slotBytes),
        .device d (max (8 * plan.outputs.length) slotBytes)]
      (D.FindsStaged plan d inputs rows s.machine.heap.blocks)
      (D.runStaged plan inputs kernel d o inputArray rowCount errorCell) := by
  have hsite₃ : s₃.context.site = .device d := hcells.grows.site.trans hsite
  have hsite₀ : i₀.scope.context.site = .device d := by rw [ho.context]; exact hsite₃
  have hcapacity : D.forecastCapacity plan (.device d) rows = .ok capacity := hsite₃ ▸ ho.forecast
  have hword := (Word.length_bytes D.config.sentinel).le
  rw [← List.singleton_append]
  refine Invocation.Follows.bind (meets_stageWith hsite₀ hword) (stageWith_demands hsite₀ hword)
    ?_ ?_
  · rintro e i ⟨hrefusal, rfl⟩
    exact ⟨ho.runs, fun he => nomatch hrefusal.symm.trans he⟩
  rintro countCell i₄ ⟨s₄, hcount, rfl⟩
  have hsite₄ := hcount.site hsite₀
  rw [← List.append_nil [_, _]]
  refine Invocation.Follows.bind (meets_stageMirror hsite₄ ho.zeroed)
    (stageMirror_demands hsite₄ ho.zeroed) ?_ ?_
  · rintro e i ⟨-, s₅, -, rfl⟩
    exact ⟨ho.runs, fun _ => rfl⟩
  rintro ⟨columns, o'⟩ i₅ ⟨⟨storage, s₅⟩, ⟨hmirror, ho'⟩, rfl⟩
  simp only at hmirror ho' ⊢
  subst ho'
  let f : Forecast := { inputs := bytes, rows, capacity }
  have hL := stagedMemory_holds hcells ho.heap hcount hmirror
  have hblocks : ∀ b ∈ s.machine.heap.blocks, b ∈ s₅.machine.heap.blocks := by
    intro b hb
    rw [hL.blocks]
    exact List.mem_append_right _ hb
  have hview := stagedMemory_view (f := f) hL hsite hoffers hblocks (eq_of_kernelRows htold)
  obtain ⟨heap, error, happly, -⟩ := hL.apply (inputs.map (·.size))
    (kernel.body (f.view plan.outputs.length D.config.sentinel))
  simp only [ho.zeroed.columnCount, ho.zeroed.capacity]
  refine follows_launch ho.runs hview happly ?_
    ⟨capacity, told, _, storage, _, hcapacity, htold, rfl, hview, hL⟩
  intro i run hrun
  refine Action.meets_check_bind (fun e _ => hrun) fun _ _ => ?_
  apply Action.meets_check
  · rintro i' r rfl -
    exact hrun
  · rintro i' e rfl -
    exact hrun

theorem follows_runOnDevice (hsite : s.context.site = .device d)
    (hoffers : List.Forall₂ s.Offers inputs bytes) :
    Invocation.Follows { scope := s } (D.demandsRun plan code inputs.length rows (.device d))
      (D.FindsStaged plan d inputs rows s.machine.heap.blocks)
      (D.runOnDevice plan inputs rows code) := by
  have hdevice : s.context.device = .ok d := Scope.device_of_site hsite
  have harray : (inputArrayBytes inputs).length = 8 * inputs.length := by
    rw [inputArrayBytes_eq, length_wordArray, List.length_map]
  refine Invocation.follows_check rfl (fun e he => ?_) fun kernel _ => ?_
  · exact Failure.not_refusal_of_precedesKernel (code.deviceKernel_checks e he)
  refine Action.meets_passed hdevice ?_
  rw [← harray, ← List.singleton_append]
  have hroom := le_max_left (inputArrayBytes inputs).length slotBytes
  refine Invocation.Follows.bind (meets_stageWith hsite hroom) (stageWith_demands hsite hroom) ?_ ?_
  · rintro e i ⟨hrefusal, rfl⟩
    exact ⟨rfl, fun he => nomatch hrefusal.symm.trans he⟩
  rintro inputArray i₁ ⟨s₁, hinputs, rfl⟩
  have hsite₁ := hinputs.site hsite
  refine Invocation.follows_check rfl (fun e he => ?_) fun told htold => ?_
  · exact Failure.not_refusal_of_precedesKernel (kernelRows_checks rows e he)
  have hword := (Word.length_bytes told).le
  rw [← List.singleton_append, List.append_assoc]
  refine Invocation.Follows.bind (meets_stageWith hsite₁ hword) (stageWith_demands hsite₁ hword)
    ?_ ?_
  · rintro e i ⟨hrefusal, rfl⟩
    exact ⟨rfl, fun he => nomatch hrefusal.symm.trans he⟩
  rintro rowCount i₂ ⟨s₂, hrows, rfl⟩
  have hsite₂ := hrows.site hsite₁
  refine Invocation.Follows.bind (meets_stageZeros hsite₂)
    (Invocation.demands_onScope (Scope.allocDevice_demands hsite₂)) ?_ ?_
  · rintro e i ⟨hrefusal, rfl⟩
    exact ⟨rfl, fun he => nomatch hrefusal.symm.trans he⟩
  rintro errorCell i₃ ⟨s₃, herror, rfl⟩
  have hsite₃ := herror.site hsite₂
  have hcells : StagesCells inputs told d s inputArray rowCount errorCell s₃ :=
    ⟨s₁, s₂, hinputs, hrows, herror⟩
  have htype : s₃.context.site.deviceType = .gpu := by rw [hsite₃]; rfl
  have hdemands := D.allocateOutput_demands plan s₃ inputs rows .gpu htype
  rw [hsite₃] at hdemands
  refine Invocation.Follows.bind (D.meets_allocateOutput plan s₃ inputs rows .gpu htype)
    hdemands ?_ ?_
  · rintro e i ⟨-, hruns, hcause⟩
    refine ⟨hruns, fun he => ?_⟩
    rcases hcause with hrefusal | hcapacity
    · exact nomatch hrefusal.symm.trans he
    · rw [hsite₃] at hcapacity
      rw [hcapacity, demandsAfter_error]
  · rintro o i ⟨capacity, ho⟩
    have hcapacity := ho.forecast
    rw [hsite₃] at hcapacity
    rw [hcapacity, demandsAfter_ok]
    exact (follows_runStaged hsite hoffers htold hcells ho).onFailure

end Device

section Whole

variable {f : CompiledFunction} {columns : ColumnStore} {site : Site} {m : Machine}

/-- The inputs have been materialised on `m`, and on a device in blocks of their own. -/
structure Materialized (D : Dispatcher) (plan : Plan) (columns : ColumnStore) (site : Site)
    (m : Machine) (r : Inputs) (bytes : List Bytes) (s : Scope) : Prop where
  isAt : s.context.site = site
  forecast : Inputs.forecastFrom columns plan.name site.deviceType.memoryLevel D.config.deviceId 0
    none plan.inputs = .ok (bytes, r.rows)
  offers : List.Forall₂ s.Offers r.buffers bytes
  placed : ∀ d, site = .device d → ∃ own, s.machine.heap.blocks = own.reverse ++ m.heap.blocks ∧
    List.Forall₂ Buffer.Starts r.buffers own ∧ List.Forall₂ Block.Keeps own bytes

theorem meets_materialize (D : Dispatcher) (plan : Plan) (columns : ColumnStore) (site : Site)
    (m : Machine) :
    (Invocation.onScope (plan.materialize columns D.config.deviceId)).Meets
      (· = { scope := ⟨{ site }, m⟩ })
      (fun r i => ∃ s, (∃ bytes, D.Materialized plan columns site m r bytes s) ∧ i = { scope := s })
      (fun e i => i.kernelRuns = [] ∧ (e.isRefusal = true ∨
        Inputs.forecastFrom columns plan.name site.deviceType.memoryLevel D.config.deviceId 0 none
          plan.inputs = .error e)) := by
  refine Action.meets_on fun t ht => ?_
  subst ht
  have hshown : Action.Meets (· = ⟨{ site }, m⟩) (plan.materialize columns D.config.deviceId) _ _ :=
    Inputs.meets_allFrom plan.inputs 0 none _
  cases site with
  | host =>
    refine hshown.weaken (fun _ h => h) ?_ ?_
    · rintro r s ⟨hgrows, bytes, hforecast, hoffers⟩
      exact ⟨s, ⟨bytes, hgrows.site, hforecast, hoffers, nofun⟩, rfl⟩
    · rintro e s ⟨-, hcause⟩
      exact ⟨rfl, hcause⟩
  | device d =>
    have hplaced : Action.Meets (· = ⟨{ site := .device d }, m⟩)
        (plan.materialize columns D.config.deviceId) _ _ :=
      Inputs.meets_allPlaced plan.inputs 0 none _ rfl
    refine (hshown.and hplaced).weaken (fun _ h => h) ?_ ?_
    · rintro r s ⟨⟨hgrows, bytes, hforecast, hoffers⟩, bytes', own, hforecast', hplaced⟩
      change Inputs.forecastFrom columns plan.name .device _ _ _ _ = _ at hforecast
      rw [hforecast] at hforecast'
      cases hforecast'
      exact ⟨s, ⟨bytes, hgrows.site, hforecast, hoffers, fun _ _ => ⟨own, hplaced⟩⟩, rfl⟩
    · rintro e s ⟨⟨-, hcause⟩, -⟩
      exact ⟨rfl, hcause⟩

/-- What is known of the run of a kernel: on a device, where everything it is given was staged. -/
def Finds (D : Dispatcher) (plan : Plan) (columns : ColumnStore) (m : Machine) :
    Site → KernelRun → Prop
  | .host, run => run.launch = none
  | .device d, run => ∃ buffers bytes rows own,
    Inputs.forecastFrom columns plan.name .device D.config.deviceId 0 none plan.inputs =
      .ok (bytes, some rows) ∧
    List.Forall₂ Buffer.Starts buffers own ∧ List.Forall₂ Block.Keeps own bytes ∧
    D.FindsStaged plan d buffers rows (own.reverse ++ m.heap.blocks) run

theorem follows_runIn (D : Dispatcher) (plan : Plan) (f : CompiledFunction) (columns : ColumnStore)
    (site : Site) (m : Machine) :
    Invocation.Follows { scope := ⟨{ site }, m⟩ } (D.demands plan f columns site)
      (D.Finds plan columns m site) (D.runIn plan f columns site.deviceType) := by
  refine Invocation.Follows.bind (D.meets_materialize plan columns site m)
    (Invocation.demands_onScope (Inputs.allFrom_demands plan.inputs 0 none _)) ?_ ?_
  · rintro e i ⟨hruns, hcause⟩
    refine ⟨hruns, fun he => ?_⟩
    rcases hcause with hrefusal | hforecast
    · exact nomatch hrefusal.symm.trans he
    · rw [hforecast, demandsAfter_error]
  · rintro ⟨buffers, rows⟩ i ⟨s, ⟨bytes, hs⟩, rfl⟩
    have hforecast := hs.forecast
    rw [hforecast, demandsAfter_ok]
    cases rows with
    | none =>
      apply Action.meets_fail
      rintro i rfl
      exact Or.inl ⟨rfl, .checked (.nil (.refl _)) rfl⟩
    | some rows =>
      cases site with
      | host => exact follows_runOnHost hs.isAt hs.offers _
      | device d =>
        obtain ⟨own, hblocks, hstarts, hkeeps⟩ := hs.placed d rfl
        have hcount : plan.inputs.length = buffers.length := by
          rw [← Inputs.length_of_forecastFrom hforecast, hs.offers.length_eq]
        simp only [hcount]
        apply (follows_runOnDevice hs.isAt hs.offers).imp
        intro run hrun
        rw [hblocks] at hrun
        exact ⟨buffers, bytes, rows, own, hforecast, hstarts, hkeeps, hrun⟩

variable {table : Table} {code : Option CompiledFunction} {target : DeviceType} {context : Context}

/-- An execution that has passed the checks in front makes the demands of its plan. -/
theorem execute_follows (columns : ColumnStore) (m : Machine)
    (h : D.prepare plan table code target = .ok (f, context)) :
    let outcome := D.execute plan table code columns target m
    let ds := D.demands plan f columns context.site
    (∃ e, outcome.result = .error e ∧ outcome.kernelRuns = [] ∧ m.Stops ds e) ∨
      (∃ m', m.Grants ds m') ∧ ∃ run, outcome.kernelRuns = [run] ∧
        D.Finds plan columns m context.site run := by
  obtain ⟨-, hcontext, htarget, -⟩ := prepare_ok h
  rw [execute, h]
  simp only
  rw [hcontext, ← htarget]
  have hfollows := D.follows_runIn plan f columns context.site m _ rfl
  rcases hrun : (D.runIn plan f columns context.site.deviceType).run
    { scope := ⟨{ site := context.site }, m⟩ } with ⟨result, i⟩
  rw [hrun] at hfollows
  cases result with
  | ok r => exact Or.inr hfollows
  | error e =>
    rcases hfollows with ⟨hruns, hstops⟩ | hreaches
    · exact Or.inl ⟨e, rfl, hruns, hstops⟩
    · exact Or.inr hreaches

/-- How an execution that has passed the checks in front ends, told from its plan and its machine:
by its first refusal, by the check that is forecast, or with a run of its kernel. -/
theorem execute_cases (columns : ColumnStore) (m : Machine)
    (h : D.prepare plan table code target = .ok (f, context)) :
    let outcome := D.execute plan table code columns target m
    match Machine.grantAll (D.demands plan f columns context.site) m,
      D.forecast plan f columns context.site with
    | .error e, _ => outcome.result = .error e ∧ outcome.kernelRuns = []
    | .ok _, .error e => outcome.result = .error e ∧ outcome.kernelRuns = []
    | .ok _, .ok given => ∃ effect run,
      D.Settles plan f context.site (.ok given) outcome given effect ∧
        outcome.kernelRuns = [run] ∧ D.Finds plan columns m context.site run := by
  intro outcome
  rcases execute_follows columns m h with ⟨e, he, hruns, hstops⟩
    | ⟨⟨m', m₁, hgranted, -⟩, run, hrun, hfinds⟩
  · rcases (execute_account columns m h).2.2 with ⟨e', he', -, hcause⟩ | ⟨given, effect, hsettles⟩
    · obtain rfl : e' = e := Except.error.inj (he'.symm.trans he)
      unfold Machine.Stops at hstops
      cases hgranted : Machine.grantAll (D.demands plan f columns context.site) m with
      | error e =>
        rw [hgranted] at hstops
        subst hstops
        exact ⟨he, hruns⟩
      | ok m' =>
        rw [hgranted] at hstops
        rcases hcause with hrefusal | hexpected
        · exact nomatch hrefusal.symm.trans hstops
        · rw [hexpected]
          exact ⟨he, hruns⟩
    · obtain ⟨run, body, hrun, -⟩ := hsettles.run
      exact nomatch hrun.symm.trans hruns
  · rw [hgranted]
    rcases (execute_account columns m h).2.2 with ⟨e, -, hruns, -⟩ | ⟨given, effect, hsettles⟩
    · exact nomatch hrun.symm.trans hruns
    · have hexpected := hsettles.expected
      rw [hexpected] at hsettles ⊢
      exact ⟨effect, run, hsettles, hrun, hfinds⟩

end Whole

end KernelDispatch.Dispatcher
