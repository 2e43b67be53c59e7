import KernelDispatch.Dispatcher.HostRun
import KernelDispatch.Proofs.Device.Launch
import KernelDispatch.Proofs.Dispatcher.Account

/-!
# The account of a host run

A kernel on the host is given the bytes that the buffers offer and columns of zeros. The result is
the storage with the stores of the kernel in it, settled by status and row count.
-/

namespace KernelDispatch

/-- On the host a buffer is read from the context, whatever the machine has done meanwhile. -/
theorem Scope.Offers.load_eq {s s' : Scope} {b : Buffer} {bs : Bytes} (h : s.Offers b bs)
    (hsite : s.context.site = .host) (hcontext : s'.context = s.context) : s'.load b = .ok bs := by
  obtain ⟨location, size⟩ := b
  obtain ⟨-, hoffer⟩ := h
  rw [hsite] at hoffer
  cases location with
  | device a => exact hoffer.elim
  | held position =>
    rw [← hoffer.2]
    simp only [Scope.load, hcontext]

namespace Dispatcher

variable {D : Dispatcher} {plan : Plan} {inputs : List Buffer} {bytes : List Bytes} {rows : ℕ}
  {code : CompiledFunction} {body : KernelBody} {o : OutputBuffers} {capacity : ℕ}

theorem hostView_eq {s : Scope} {i : Invocation} {told : Word} {f : Forecast}
    (ho : o.Zeroed plan f.capacity) (hsite : s.context.site = .host)
    (hoffers : List.Forall₂ s.Offers inputs f.inputs) (hcontext : i.scope.context = s.context)
    (htold : told = BitVec.ofNat 64 f.rows) :
    hostView inputs told o i = .ok (f.view plan.outputs.length (-1)) := by
  have hload : inputs.mapM i.scope.load = .ok f.inputs :=
    mapM_ok (hoffers.imp fun _ _ hoffer => hoffer.load_eq hsite hcontext)
  have hwords : o.result.words =
      List.replicate plan.outputs.length (List.replicate f.capacity 0) := by
    rw [ResultSet.words, ho.columnCount]
    unfold ResultSet.columnWords ResultSet.columnOffset
    rw [ho.padded, ho.capacity]
    exact columns_of_zeros _ _ _ le_rfl
  refine bind_eq_ok_iff.mpr ⟨_, hload, ?_⟩
  rw [hwords, htold]
  rfl

/-- The result of a host kernel shows its stores, or it is refused as settling says. -/
theorem reconcileHost_settles (ho : o.Zeroed plan capacity) (before : Word)
    (effect : KernelEffect) :
    match reconcileHost plan o before effect with
    | .ok r => ∃ rows, D.settle plan capacity before effect .host = .ok rows ∧
        r.Shows plan capacity rows effect.stores
    | .error e => D.settle plan capacity before effect .host = .error e := by
  have halike := o.result.alike_foldl_store effect.stores
  have hcapacity : (o.storeAll effect.stores).result.capacity = capacity :=
    halike.capacity.trans ho.capacity
  unfold reconcileHost settle withinCapacity
  simp only
  by_cases hstatus : effect.status = 0
  · rw [if_pos hstatus, if_pos hstatus]
    by_cases hnegative : (effect.count.getD before).toInt < 0
    · rw [if_pos hnegative, if_pos hnegative]
    · rw [if_neg hnegative, if_neg hnegative, ResultSet.setEntries]
      by_cases hwithin : (effect.count.getD before).toNat ≤ capacity
      · rw [dif_pos (hcapacity.symm ▸ hwithin), if_pos hwithin]
        refine ⟨_, rfl, ho.shows halike.types halike.capacity halike.footprint rfl ?_⟩
        intro column hcolumn row hrow k hk
        have hpadded := o.result.padded_foldl_store effect.stores
        rw [ho.padded, ho.columnCount, ho.capacity] at hpadded
        change (effect.stores.foldl ResultSet.store o.result).storage.padded[_]? = _
        rw [hpadded]
        exact getElem?_foldl_storeBytes effect.stores le_rfl hcolumn (by omega) hk
      · rw [dif_neg (hcapacity.symm ▸ hwithin), if_neg hwithin, hcapacity]
  · rw [if_neg hstatus, if_neg hstatus]

theorem meets_callHost {s : Scope} {m : Machine} {i₀ : Invocation} (hsite : s.context.site = .host)
    (hoffers : List.Forall₂ s.Offers inputs bytes) (hledger : Ledger m 0 s)
    (hbody : code.hostBody = .ok body) (ho : D.Allocated plan s rows capacity o i₀) :
    Action.Meets (· = i₀) (callHost plan inputs rows body o)
      (D.Answers plan code .host (D.forecastRun plan code bytes rows .host) m)
      (D.Fails plan code .host (D.forecastRun plan code bytes rows .host) m (0 + o.footprint)) := by
  have hcapacity : D.forecastCapacity plan .host rows = .ok capacity := hsite ▸ ho.forecast
  refine Action.meets_check_bind (fun e htold => ?_) fun told htold => ?_
  · refine ⟨ho.ledger hledger, Or.inl ⟨ho.runs, Or.inr ?_⟩⟩
    exact bind_eq_error_iff.mpr (Or.inr ⟨_, hbody, bind_eq_error_iff.mpr (Or.inr ⟨_, hcapacity,
      bind_eq_error_iff.mpr (Or.inl htold)⟩)⟩)
  let f : Forecast := { inputs := bytes, rows, capacity }
  let view := f.view plan.outputs.length (-1)
  have hexpected : D.forecastRun plan code bytes rows .host = .ok f :=
    bind_eq_ok_iff.mpr ⟨_, hbody, bind_eq_ok_iff.mpr ⟨_, hcapacity,
      bind_eq_ok_iff.mpr ⟨_, htold, rfl⟩⟩⟩
  have hview : hostView inputs told o i₀ = .ok view :=
    hostView_eq ho.zeroed hsite hoffers ho.context (eq_of_kernelRows htold)
  have hran : D.Ran plan code .host (D.forecastRun plan code bytes rows .host) f (body view)
      { i₀ with kernelRuns := [{ view }] } :=
    ⟨hexpected, ho.request, _, body, rfl, CompiledFunction.hostBody_eq_ok_iff.mp hbody, rfl, rfl⟩
  refine Action.meets_passed hview (Action.meets_update_bind ?_)
  rw [ho.runs]
  have hsettles := reconcileHost_settles (D := D) ho.zeroed (-1) (body view)
  apply Action.meets_check
  · rintro i r rfl hr
    change reconcileHost plan o (-1) (body view) = .ok r at hr
    rw [hr] at hsettles
    obtain ⟨count, hsettle, hshows⟩ := hsettles
    refine ⟨?_, f, body view, count, hran, hsettle, hshows⟩
    have hledger' := ho.ledger hledger
    rwa [ho.zeroed.footprint, ← hshows.footprint, Nat.zero_add] at hledger'
  · rintro i e rfl he
    change reconcileHost plan o (-1) (body view) = .error e at he
    rw [he] at hsettles
    exact ⟨ho.ledger hledger, Or.inr ⟨f, body view, hran, hsettles⟩⟩

theorem meets_runOnHost {s : Scope} {m : Machine} (hsite : s.context.site = .host)
    (hoffers : List.Forall₂ s.Offers inputs bytes) (hledger : Ledger m 0 s) :
    Action.Meets (· = { scope := s }) (D.runOnHost plan inputs rows code)
      (D.Answers plan code .host (D.forecastRun plan code bytes rows .host) m)
      (D.Fails plan code .host (D.forecastRun plan code bytes rows .host) m 0) := by
  refine Action.meets_check_bind (fun e hbody => ?_) fun body hbody => ?_
  · exact ⟨hledger, Or.inl ⟨rfl, Or.inr (bind_eq_error_iff.mpr (Or.inl hbody))⟩⟩
  have htype : s.context.site.deviceType = .cpu := by rw [hsite]; rfl
  refine (D.meets_allocateOutput plan s inputs rows .cpu htype).bind ?_ ?_
  · rintro e i ⟨hscope, hruns, hcause⟩
    refine ⟨hscope.symm ▸ hledger, Or.inl ⟨hruns, hcause.imp_right fun hcapacity => ?_⟩⟩
    rw [hsite] at hcapacity
    exact bind_eq_error_iff.mpr (Or.inr ⟨_, hbody, bind_eq_error_iff.mpr (Or.inl hcapacity)⟩)
  · intro o
    apply Action.meets_onFailure
    rintro i ⟨capacity, ho⟩
    exact (meets_callHost hsite hoffers hledger hbody ho).weaken (fun _ h => h) (fun _ _ h => h)
      (fun _ _ h => h.releaseOutput) i rfl

end Dispatcher

end KernelDispatch
