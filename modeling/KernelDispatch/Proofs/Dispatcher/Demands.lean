import KernelDispatch.Proofs.Dispatcher.Checks
import KernelDispatch.Proofs.Dispatcher.DeviceRun
import KernelDispatch.Proofs.Dispatcher.HostRun
import KernelDispatch.Proofs.Inputs.Demands

/-!
# What an invocation demands

The demands of an invocation can be told from its plan: those of its inputs, then those of its
output and, on a device, of what is staged for the launch. The kernel runs after the last of them
has been granted and every check has been passed; otherwise the invocation ends with the first
refusal or with the first check that fails, whichever comes first.
-/

namespace KernelDispatch

section Output

variable (q : OutputRequest) (plan : Plan) (s : Scope)

def Plan.outputDemand (capacity : ℕ) : Demand :=
  .host (8 * (plan.outputs.length * capacity))

theorem OutputRequest.allocateColumns_demands :
    s.Demands (q.allocateColumns plan)
      (demandsAfter (q.check plan { site := s.context.site }) fun _ =>
        [plan.outputDemand q.rows]) := by
  have hdemand {n : ℕ} (hcheck : q.check plan s.context = .ok n) :
      plan.outputDemand q.rows = .host (8 * slotsFor n) := by
    rw [Plan.outputDemand, slotsFor_of_check hcheck]
  change s.Demands _ (demandsAfter (q.check plan s.context) _)
  rintro s rfl
  rcases allocateColumns_cases q plan s with ⟨n, m, r, hcheck, hnew, -, -, hrun⟩ |
    ⟨e, hcheck, hrun⟩ | ⟨n, e, hcheck, hnew, hrun⟩
  · rw [hrun, hcheck, demandsAfter_ok, hdemand hcheck]
    exact Machine.newBuffer_grants hnew
  · rw [hrun, hcheck, demandsAfter_error]
    exact .checked (.nil (.refl s.machine))
      (Failure.not_refusal_of_precedesKernel (q.check_checks plan _ e hcheck))
  · rw [hrun, hcheck, demandsAfter_ok, hdemand hcheck]
    exact Machine.newBuffer_stops hnew

theorem Initializer.allocate_demands (i : Initializer) :
    s.Demands (i.allocate q plan)
      (demandsAfter (i.requested q plan s.context.site) fun capacity =>
        [plan.outputDemand capacity]) := by
  have hcolumns (rows : ℕ) :
      s.Demands ({ q with rows }.allocateColumns plan)
        (demandsAfter (({ q with rows } : OutputRequest).check plan { site := s.context.site } >>=
          fun _ => .ok rows) fun capacity => [plan.outputDemand capacity]) := by
    have hdemands := { q with rows }.allocateColumns_demands plan s
    cases hcheck : ({ q with rows } : OutputRequest).check plan { site := s.context.site } with
    | error e =>
      rw [hcheck] at hdemands
      exact hdemands
    | ok n =>
      rw [hcheck] at hdemands
      exact hdemands
  cases i with
  | columns => exact hcolumns q.rows
  | roomier extraRows => exact hcolumns (q.rows + extraRows)
  | failing message =>
    exact Action.meets_fail fun _ _ => Machine.Stops.checked (.nil (.refl s.machine)) rfl

end Output

namespace Invocation

variable {α β : Type} {i₀ i : Invocation} {ds rest : List Demand} {seen : KernelRun → Prop}
  {m m' : Machine} {e : Failure}

/-- The kernel has run, on what is described, after all these demands were granted. -/
def Reaches (i : Invocation) (m : Machine) (ds : List Demand) (seen : KernelRun → Prop) : Prop :=
  (∃ m', m.Grants ds m') ∧ ∃ run, i.kernelRuns = [run] ∧ seen run

/-- The invocation has stopped before its kernel at one of these demands or at a check after
them. -/
def Halts (i : Invocation) (m : Machine) (ds : List Demand) (e : Failure) : Prop :=
  i.kernelRuns = [] ∧ m.Stops ds e

/-- From `i₀` the action makes these demands and no others before the kernel runs. -/
def Follows (i₀ : Invocation) (ds : List Demand) (seen : KernelRun → Prop)
    (x : Action Invocation α) : Prop :=
  x.Meets (· = i₀) (fun _ i => i.Reaches i₀.scope.machine ds seen)
    fun e i => i.Halts i₀.scope.machine ds e ∨ i.Reaches i₀.scope.machine ds seen

theorem Reaches.after (h : i.Reaches m' rest seen) (hm : m.Grants ds m') :
    i.Reaches m (ds ++ rest) seen := by
  obtain ⟨⟨m₁, hrest⟩, hrun⟩ := h
  exact ⟨⟨m₁, hm.append hrest⟩, hrun⟩

theorem Halts.after (h : i.Halts m' rest e) (hm : m.Grants ds m') : i.Halts m (ds ++ rest) e :=
  ⟨h.1, hm.stops h.2⟩

theorem Follows.bind {x : Action Invocation α} {f : α → Action Invocation β}
    {post : α → Invocation → Prop} {stop : Failure → Invocation → Prop}
    (hx : x.Meets (· = i₀) post stop)
    (hdemands : x.Meets (· = i₀) (fun _ i => i₀.scope.machine.Grants ds i.scope.machine)
      fun e _ => i₀.scope.machine.Stops ds e)
    (hstop : ∀ e i, stop e i → i.kernelRuns = [] ∧ (e.isRefusal = false → rest = []))
    (hrest : ∀ a i, post a i → i.Follows rest seen (f a)) :
    i₀.Follows (ds ++ rest) seen (x >>= f) := by
  apply (hx.and hdemands).bind
  · rintro e i ⟨hi, hstops⟩
    obtain ⟨hruns, hnone⟩ := hstop e i hi
    exact Or.inl ⟨hruns, hstops.append hnone⟩
  · rintro a i ⟨hi, hgrants⟩
    refine (hrest a i hi).weaken (fun _ h => h) ?_ ?_ i rfl
    · exact fun b i' hreaches => hreaches.after hgrants
    · exact fun e i' hends => hends.imp (·.after hgrants) (·.after hgrants)

theorem follows_check {c : Invocation → Except Failure α} {f : α → Action Invocation β}
    {rest : α → List Demand} (hruns : i₀.kernelRuns = [])
    (hc : ∀ e, c i₀ = .error e → e.isRefusal = false)
    (hrest : ∀ a, c i₀ = .ok a → i₀.Follows (rest a) seen (f a)) :
    i₀.Follows (demandsAfter (c i₀) rest) seen (Action.check c >>= f) := by
  apply Action.meets_check_bind
  · intro e he
    rw [he, demandsAfter_error]
    exact Or.inl ⟨hruns, .checked (.nil (.refl _)) (hc e he)⟩
  · intro a ha
    rw [ha, demandsAfter_ok]
    exact hrest a ha

theorem Follows.imp {seen' : KernelRun → Prop} {x : Action Invocation α}
    (h : i₀.Follows ds seen x) (himp : ∀ run, seen run → seen' run) : i₀.Follows ds seen' x := by
  have hreaches {i : Invocation} (hi : i.Reaches i₀.scope.machine ds seen) :
      i.Reaches i₀.scope.machine ds seen' := by
    obtain ⟨hgrants, run, hrun, hseen⟩ := hi
    exact ⟨hgrants, run, hrun, himp run hseen⟩
  refine h.weaken (fun _ h => h) ?_ ?_
  · exact fun _ _ hi => hreaches hi
  · exact fun _ _ hi => hi.imp_right hreaches

theorem Follows.onFailure {x : Action Invocation α} {n : ℕ} (h : i₀.Follows ds seen x) :
    i₀.Follows ds seen (x.onFailure (releaseOutput n)) :=
  Action.meets_onFailure h

/-- After the kernel has run no demand is made. -/
theorem follows_after_run {x : Action Invocation α} {run : KernelRun}
    (hx : x.Meets (· = i₀) (fun _ i => i.kernelRuns = [run]) fun _ i => i.kernelRuns = [run])
    (hseen : seen run) : i₀.Follows [] seen x := by
  have hreaches {i : Invocation} (hi : i.kernelRuns = [run]) : i.Reaches i₀.scope.machine [] seen :=
    ⟨⟨_, .nil (.refl _)⟩, run, hi, hseen⟩
  exact hx.weaken (fun _ h => h) (fun _ _ hi => hreaches hi) fun _ _ hi => Or.inr (hreaches hi)

theorem demands_onScope {x : Action Scope α} (h : i₀.scope.Demands x ds) :
    (onScope x).Meets (· = i₀) (fun _ i => i₀.scope.machine.Grants ds i.scope.machine)
      fun e _ => i₀.scope.machine.Stops ds e := by
  refine Action.meets_on fun i hi => ?_
  subst hi
  exact h

end Invocation

namespace Dispatcher

variable (D : Dispatcher) (plan : Plan)

/-- The demands of a run for as many inputs, of `rows` rows, that have been materialised. -/
def demandsRun (code : CompiledFunction) (inputs rows : ℕ) : Site → List Demand
  | .host =>
    demandsAfter code.hostBody fun _ =>
      demandsAfter (D.requestedCapacity plan .host rows) fun capacity =>
        [plan.outputDemand capacity]
  | .device d =>
    demandsAfter code.deviceKernel fun _ =>
      .device d (max (8 * inputs) slotBytes) ::
        demandsAfter (kernelRows rows) fun _ =>
          [.device d slotBytes, .device d slotBytes] ++
            ((demandsAfter (D.requestedCapacity plan (.device d) rows) fun capacity =>
                [plan.outputDemand capacity]) ++
              demandsAfter (D.forecastCapacity plan (.device d) rows) fun capacity =>
                [.device d slotBytes,
                  .device d (max (8 * (plan.outputs.length * capacity)) slotBytes),
                  .device d (max (8 * plan.outputs.length) slotBytes)])

/-- The demands of an invocation at a site, in order, up to the first check that fails. -/
def demands (code : CompiledFunction) (columns : ColumnStore) (site : Site) : List Demand :=
  Inputs.demandsFrom columns plan.name D.config.deviceId site 0 none plan.inputs ++
    demandsAfter (Inputs.forecastFrom columns plan.name site.deviceType.memoryLevel
        D.config.deviceId 0 none plan.inputs) fun inputs =>
      match inputs.2 with
      | none => []
      | some rows => D.demandsRun plan code plan.inputs.length rows site

theorem allocateOutput_demands (s₀ : Scope) (inputs : List Buffer) (rows : ℕ) (target : DeviceType)
    (hsite : s₀.context.site.deviceType = target) :
    Action.Meets (· = { scope := s₀ }) (D.allocateOutput plan inputs rows target)
      (fun _ i => s₀.machine.Grants (demandsAfter (D.requestedCapacity plan s₀.context.site rows)
        fun capacity => [plan.outputDemand capacity]) i.scope.machine)
      (fun e _ => s₀.machine.Stops (demandsAfter (D.requestedCapacity plan s₀.context.site rows)
        fun capacity => [plan.outputDemand capacity]) e) := by
  subst hsite
  refine Action.meets_check_bind (fun e hcapacity => ?_) fun capacity hcapacity => ?_
  · rw [requestedCapacity, hcapacity]
    exact .checked (.nil (.refl _))
      (Failure.not_refusal_of_precedesKernel (plan.rowCapacity_checks rows e hcapacity))
  rw [D.requestedCapacity_eq plan _ inputs hcapacity]
  exact Action.meets_update_bind (Invocation.demands_onScope
    (D.initializer.allocate_demands _ plan s₀))

end Dispatcher

end KernelDispatch
