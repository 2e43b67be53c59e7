import KernelDispatch.Proofs.Context.Acquire

/-!
# Allocated output

An initializer that is asked for output storage either answers with columns of zeros of the forecast
capacity, whose bytes are reserved beside the context, or it stops with the cause that is forecast,
or the reservation was refused. The context and the device memory are the same afterwards.
-/

namespace KernelDispatch

/-- Columns of zeros with room for `rows` rows. -/
structure OutputBuffers.Zeroed (plan : Plan) (rows : ℕ) (o : OutputBuffers) : Prop where
  types : o.result.types = plan.outputTypes
  capacity : o.result.capacity = rows
  padded : o.result.storage.padded = List.replicate (8 * (plan.outputs.length * rows)) 0
  size : o.result.storage.size = 8 * (plan.outputs.length * rows)
  footprint : o.footprint = 8 * (plan.outputs.length * rows)
  mirror : o.mirror = none

namespace OutputBuffers.Zeroed

variable {plan : Plan} {rows : ℕ} {o : OutputBuffers}

theorem columnCount (h : o.Zeroed plan rows) : o.result.columnCount = plan.outputs.length := by
  rw [ResultSet.columnCount, h.types, Plan.outputTypes, List.length_map]

theorem storageBytes (h : o.Zeroed plan rows) :
    o.result.storageBytes = 8 * (plan.outputs.length * rows) := by
  rw [ResultSet.storageBytes, h.columnCount, h.capacity]

theorem storageBytes_le (h : o.Zeroed plan rows) :
    o.result.storageBytes ≤ o.result.storage.size := by
  rw [h.storageBytes, h.size]

end OutputBuffers.Zeroed

namespace OutputRequest

variable {q : OutputRequest} {plan : Plan} {s s' : Scope} {o : OutputBuffers}

theorem numBytes?_eq_some {n : ℕ} (h : q.numBytes? = some n) :
    n = q.layout.slots.length * q.rows * 8 ∧ n < sizeBound := by
  unfold numBytes? asSize? at h
  obtain ⟨words, hwords, hn⟩ := Option.bind_eq_some_iff.mp h
  split_ifs at hwords hn with hword hbyte
  cases hwords
  cases hn
  exact ⟨rfl, hbyte⟩

theorem length_of_checkLayout {columns : ℕ} {u : Unit} (h : q.checkLayout columns = .ok u) :
    q.layout.slots.length = columns := by
  unfold checkLayout at h
  split at h
  · split at h
    · cases h
    · split at h
      · cases h
      · split at h
        · assumption
        · cases h
  · cases h

theorem check_ok {c : Context} {n : ℕ} (h : q.check plan c = .ok n) :
    n = plan.outputs.length * q.rows * 8 ∧ n < sizeBound := by
  obtain ⟨_, hlayout, h⟩ := bind_eq_ok_iff.mp h
  obtain ⟨_, -, h⟩ := bind_eq_ok_iff.mp h
  obtain ⟨_, -, h⟩ := bind_eq_ok_iff.mp h
  have hlength := length_of_checkLayout hlayout
  cases hnum : q.numBytes? with
  | none =>
    rw [hnum] at h
    cases h
  | some n' =>
    rw [hnum] at h
    cases h
    rw [← hlength]
    exact numBytes?_eq_some hnum

theorem create_zeroed {n capacity : ℕ} (hn : n = plan.outputs.length * capacity * 8) :
    ∃ r, ResultSet.create plan.outputTypes (.zeroed n) capacity = .ok r ∧
      OutputBuffers.Zeroed plan capacity { result := r } := by
  have hslots : slotsFor n = plan.outputs.length * capacity := by rw [hn, slotsFor_mul_eight]
  have hcovered : plan.outputTypes.length * capacity ≤ (HostBuffer.zeroed n).slotCount := by
    rw [HostBuffer.slotCount, HostBuffer.size_zeroed, hslots, Plan.outputTypes, List.length_map]
  refine ⟨_, dif_pos hcovered, rfl, rfl, ?_, ?_, ?_, rfl⟩
  · change List.replicate (8 * slotsFor n) 0 = _
    rw [hslots]
  · change n = _
    omega
  · change 8 * slotsFor n = _
    rw [hslots]

theorem checkStorage_eq_ok_iff {capacity : ℕ} :
    plan.checkStorage capacity = .ok () ↔
      8 * (plan.outputs.length * capacity) < Word.signedBound := by
  unfold Plan.checkStorage
  split_ifs with h <;> simp [h]

theorem checkStorage_eq_error_iff {capacity : ℕ} {e : Failure} :
    plan.checkStorage capacity = .error e ↔
      Word.signedBound ≤ 8 * (plan.outputs.length * capacity) ∧ e = .capacityOverflow := by
  unfold Plan.checkStorage
  split_ifs with h
  · simp [h]
  · simp [Nat.le_of_not_lt h, eq_comm]

theorem slotsFor_of_check {c : Context} {n : ℕ} (h : q.check plan c = .ok n) :
    slotsFor n = plan.outputs.length * q.rows := by
  rw [(check_ok h).1, slotsFor_mul_eight]

/-- A request that passes its checks asks for a buffer, which holds the columns if there is one. -/
theorem allocateColumns_cases (q : OutputRequest) (plan : Plan) (s : Scope) :
    (∃ n m r, q.check plan s.context = .ok n ∧
      (Machine.newBuffer n).run s.machine = (.ok (.zeroed n), m) ∧
      ResultSet.create plan.outputTypes (.zeroed n) q.rows = .ok r ∧
      OutputBuffers.Zeroed plan q.rows { result := r } ∧
      (q.allocateColumns plan).run s = (.ok { result := r }, { s with machine := m })) ∨
    (∃ e, q.check plan s.context = .error e ∧ (q.allocateColumns plan).run s = (.error e, s)) ∨
    ∃ n e, q.check plan s.context = .ok n ∧
      (Machine.newBuffer n).run s.machine = (.error e, s.machine) ∧
      (q.allocateColumns plan).run s = (.error e, s) := by
  cases hcheck : q.check plan s.context with
  | error e =>
    exact Or.inr (Or.inl ⟨e, rfl, Action.run_bind_eq_error_iff.mpr
      (Or.inl (Action.run_check_eq_iff.mpr ⟨hcheck, rfl⟩))⟩)
  | ok n =>
    have hpasses : (Action.check fun s => q.check plan s.context).run s = (.ok n, s) :=
      Action.run_check_eq_iff.mpr ⟨hcheck, rfl⟩
    rcases hnew : (Machine.newBuffer n).run s.machine with ⟨e | storage, m⟩
    · obtain rfl := Machine.atomic_newBuffer n _ _ _ hnew
      refine Or.inr (Or.inr ⟨n, e, rfl, hnew, Action.run_bind_eq_error_iff.mpr (Or.inr
        ⟨n, s, hpasses, Action.run_bind_eq_error_iff.mpr (Or.inl ?_)⟩)⟩)
      exact Scope.run_onMachine_eq_iff.mpr ⟨_, hnew, rfl⟩
    · obtain ⟨rfl, -⟩ := Machine.newBuffer_ok hnew
      obtain ⟨r, hcreate, hzeroed⟩ := create_zeroed (check_ok hcheck).1
      refine Or.inl ⟨n, m, r, rfl, hnew, hcreate, hzeroed,
        Action.run_bind_eq_ok_iff.mpr ⟨n, s, hpasses,
        Action.run_bind_eq_ok_iff.mpr ⟨_, { s with machine := m },
          Scope.run_onMachine_eq_iff.mpr ⟨m, hnew, rfl⟩,
          Action.run_bind_eq_ok_iff.mpr ⟨r, { s with machine := m }, ?_, rfl⟩⟩⟩⟩
      rw [Action.run_onFailure, Action.run_check, hcreate]

theorem allocateColumns_ok (h : (q.allocateColumns plan).run s = (.ok o, s')) :
    (∃ n, q.check plan { site := s.context.site } = .ok n) ∧
      plan.checkStorage q.rows = .ok () ∧ o.Zeroed plan q.rows ∧ o.footprint < sizeBound ∧
      s'.context = s.context ∧ s'.machine.heap = s.machine.heap ∧
      ∀ {m owed}, Ledger m owed s → Ledger m (owed + o.footprint) s' := by
  rcases allocateColumns_cases q plan s with ⟨n, m, r, hcheck, hnew, -, hzeroed, hrun⟩ |
    ⟨e, -, hrun⟩ | ⟨n, e, -, -, hrun⟩
  · rw [hrun] at h
    cases h
    obtain ⟨hn, hsize⟩ := check_ok hcheck
    obtain ⟨-, hheap, hlimit, hinUse⟩ := Machine.newBuffer_ok hnew
    have hfootprint : OutputBuffers.footprint { result := r } = 8 * slotsFor n := by
      rw [hzeroed.footprint, hn, slotsFor_mul_eight]
    have hfits := Machine.newBuffer_fits hnew
    rw [slotsFor_of_check hcheck] at hfits
    refine ⟨⟨n, hcheck⟩, checkStorage_eq_ok_iff.mpr hfits, hzeroed, ?_, rfl, hheap,
      fun hledger => ?_⟩
    · rw [hzeroed.footprint]
      omega
    · rw [hfootprint]
      exact hledger.owe rfl hheap hlimit hinUse
  · rw [hrun] at h
    cases h
  · rw [hrun] at h
    cases h

theorem allocateColumns_error {e : Failure}
    (h : (q.allocateColumns plan).run s = (.error e, s')) : s' = s ∧
      (e.isRefusal = true ∨ q.check plan { site := s.context.site } = .error e ∨
        (∃ n, q.check plan { site := s.context.site } = .ok n) ∧
          plan.checkStorage q.rows = .error e) := by
  rcases allocateColumns_cases q plan s with ⟨n, m, r, -, -, -, -, hrun⟩ | ⟨e', hcheck, hrun⟩ |
    ⟨n, e', hcheck, hnew, hrun⟩
  · rw [hrun] at h
    cases h
  · rw [hrun] at h
    cases h
    exact ⟨rfl, Or.inr (Or.inl hcheck)⟩
  · rw [hrun] at h
    cases h
    refine ⟨rfl, (Machine.newBuffer_failure hnew).imp_right ?_⟩
    rintro ⟨hlarge, rfl⟩
    rw [slotsFor_of_check hcheck] at hlarge
    exact Or.inr ⟨⟨n, hcheck⟩, checkStorage_eq_error_iff.mpr ⟨hlarge, rfl⟩⟩

theorem atomic_allocateColumns (q : OutputRequest) (plan : Plan) :
    (q.allocateColumns plan).Atomic :=
  fun _ _ _ h => (allocateColumns_error h).1

end OutputRequest

namespace Initializer

variable {i : Initializer} {q : OutputRequest} {plan : Plan} {s s' : Scope} {o : OutputBuffers}

theorem allocate_ok (h : (i.allocate q plan).run s = (.ok o, s')) :
    i.forecast q plan s.context.site = .ok (i.roomFor q.rows) ∧ o.Zeroed plan (i.roomFor q.rows) ∧
      o.footprint < sizeBound ∧ s'.context = s.context ∧ s'.machine.heap = s.machine.heap ∧
      ∀ {m owed}, Ledger m owed s → Ledger m (owed + o.footprint) s' := by
  have hforecast {rows : ℕ} (hrequested : i.requested q plan s.context.site = .ok rows)
      (hstorage : plan.checkStorage rows = .ok ()) :
      i.forecast q plan s.context.site = .ok rows :=
    bind_eq_ok_iff.mpr ⟨rows, hrequested, bind_eq_ok_iff.mpr ⟨(), hstorage, rfl⟩⟩
  cases i with
  | columns =>
    obtain ⟨⟨n, hcheck⟩, hstorage, hallocated⟩ := OutputRequest.allocateColumns_ok h
    exact ⟨hforecast (bind_eq_ok_iff.mpr ⟨n, hcheck, rfl⟩) hstorage, hallocated⟩
  | roomier extraRows =>
    obtain ⟨⟨n, hcheck⟩, hstorage, hallocated⟩ := OutputRequest.allocateColumns_ok h
    exact ⟨hforecast (bind_eq_ok_iff.mpr ⟨n, hcheck, rfl⟩) hstorage, hallocated⟩
  | failing message => cases h

theorem allocate_error {e : Failure} (h : (i.allocate q plan).run s = (.error e, s')) :
    s' = s ∧ (e.isRefusal = true ∨ i.forecast q plan s.context.site = .error e) := by
  have hcolumns {rows : ℕ} (hfails : ({ q with rows }.allocateColumns plan).run s = (.error e, s'))
      (hrequested : i.requested q plan s.context.site = do
        let _ ← ({ q with rows } : OutputRequest).check plan { site := s.context.site }
        return rows) :
      s' = s ∧ (e.isRefusal = true ∨ i.forecast q plan s.context.site = .error e) := by
    refine (OutputRequest.allocateColumns_error hfails).imp_right (Or.imp_right ?_)
    rw [forecast, hrequested]
    rintro (hcheck | ⟨⟨n, hcheck⟩, hstorage⟩)
    · rw [hcheck]
      rfl
    · rw [hcheck]
      exact bind_eq_error_iff.mpr (Or.inr ⟨rows, rfl, bind_eq_error_iff.mpr (Or.inl hstorage)⟩)
  cases i with
  | columns => exact hcolumns h rfl
  | roomier extraRows => exact hcolumns h rfl
  | failing message =>
    cases h
    exact ⟨rfl, Or.inr rfl⟩

theorem atomic_allocate (i : Initializer) (q : OutputRequest) (plan : Plan) :
    (i.allocate q plan).Atomic :=
  fun _ _ _ h => (allocate_error h).1

end Initializer

namespace Dispatcher

variable (D : Dispatcher) (plan : Plan)

/-- The forecast looks at the number of fragments, not at the buffers of one. -/
theorem requestedCapacity_eq {rows capacity : ℕ} (site : Site) (inputs : List Buffer)
    (h : plan.rowCapacity rows = .ok capacity) :
    D.requestedCapacity plan site rows =
      D.initializer.requested (D.outputRequest plan site.deviceType capacity inputs) plan site := by
  rw [requestedCapacity, h]
  cases D.initializer <;> rfl

theorem forecastCapacity_eq {rows capacity : ℕ} (site : Site) (inputs : List Buffer)
    (h : plan.rowCapacity rows = .ok capacity) :
    D.forecastCapacity plan site rows =
      D.initializer.forecast (D.outputRequest plan site.deviceType capacity inputs) plan site := by
  rw [forecastCapacity, h]
  cases D.initializer <;> rfl

/-- An invocation that has allocated its output and nothing else since it was at `s₀`. -/
structure Allocated (s₀ : Scope) (rows capacity : ℕ) (o : OutputBuffers) (i : Invocation) :
    Prop where
  forecast : D.forecastCapacity plan s₀.context.site rows = .ok capacity
  request : ∃ request, i.requests = [request] ∧
    capacity = D.initializer.roomFor request.request.rows
  runs : i.kernelRuns = []
  zeroed : o.Zeroed plan capacity
  size : o.footprint < sizeBound
  context : i.scope.context = s₀.context
  heap : i.scope.machine.heap = s₀.machine.heap
  ledger : ∀ {m owed}, Ledger m owed s₀ → Ledger m (owed + o.footprint) i.scope

theorem meets_allocateOutput (s₀ : Scope) (inputs : List Buffer) (rows : ℕ) (target : DeviceType)
    (hsite : s₀.context.site.deviceType = target) :
    Action.Meets (· = { scope := s₀ }) (D.allocateOutput plan inputs rows target)
      (fun o i => ∃ capacity, D.Allocated plan s₀ rows capacity o i)
      (fun e i => i.scope = s₀ ∧ i.kernelRuns = [] ∧
        (e.isRefusal = true ∨ D.forecastCapacity plan s₀.context.site rows = .error e)) := by
  subst hsite
  refine Action.meets_check_bind (fun e hcapacity => ?_) fun capacity hcapacity => ?_
  · refine ⟨rfl, rfl, Or.inr ?_⟩
    rw [forecastCapacity, hcapacity]
    rfl
  refine Action.meets_update_bind (Action.meets_on fun t ht => ?_)
  subst ht
  apply (Initializer.atomic_allocate _ _ plan).meets
  · rintro s o s' rfl hallocate
    obtain ⟨hforecast, hzeroed, hsize, hcontext, hheap, hledger⟩ :=
      Initializer.allocate_ok hallocate
    refine ⟨_, ?_, ⟨_, rfl, rfl⟩, rfl, hzeroed, hsize, hcontext, hheap,
      hledger⟩
    rw [D.forecastCapacity_eq plan _ inputs hcapacity]
    exact hforecast
  · rintro s e rfl hallocate
    refine ⟨rfl, rfl, (Initializer.allocate_error hallocate).2.imp_right fun hforecast => ?_⟩
    rw [D.forecastCapacity_eq plan _ inputs hcapacity]
    exact hforecast

end Dispatcher

end KernelDispatch
