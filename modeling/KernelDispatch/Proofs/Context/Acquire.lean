import KernelDispatch.Proofs.Context.Ledger
import KernelDispatch.Proofs.Forecast

/-!
# Acquiring buffers

Each operation that gives a context one more buffer either says exactly what it took from the
machine, or it was refused. A buffer that is offered to a kernel shows its bytes, on the host
through the context and on a device through the block that starts at its address; it goes on showing
them while the context acquires more.
-/

namespace KernelDispatch

namespace Machine

variable {m m' : Machine} {n : ℕ} {e : Failure}

theorem reserve_ok (h : m.reserve n = .ok m') :
    m' = { m with budget := { m.budget with inUse := m.budget.more n } } := by
  obtain ⟨B, hB, heq⟩ := bind_eq_ok_iff.mp h
  cases heq
  rw [((Budget.reserve_eq_ok_iff _).mp hB).2]

theorem reserve_error (h : m.reserve n = .error e) : e.isRefusal = true := by
  rcases bind_eq_error_iff.mp h with hB | ⟨B, -, hpure⟩
  · unfold Budget.reserve at hB
    split at hB
    · cases hB
    · split_ifs at hB
      cases hB
      rfl
  · cases hpure

theorem release_of_reserve (h : m.reserve n = .ok m') : m'.release n = m := by
  rw [reserve_ok h, release, Budget.release_reserve]

/-- A buffer is there if its words were granted and there can be one of this size. -/
theorem newBuffer_eq_ok_iff {b : HostBuffer} : (newBuffer n).run m = (.ok b, m') ↔
    m.reserve (8 * slotsFor n) = .ok m' ∧ HostBuffer.fresh n = .ok b := by
  unfold newBuffer
  rw [Action.run_bind_eq_ok_iff]
  simp only [Action.run_attempt_eq_ok_iff, Action.run_onFailure, Action.run_check]
  cases HostBuffer.fresh n with
  | error e => simp
  | ok b' => simp [and_comm]

theorem newBuffer_eq_error_iff : (newBuffer n).run m = (.error e, m') ↔ m' = m ∧
    (m.reserve (8 * slotsFor n) = .error e ∨
      (∃ m₁, m.reserve (8 * slotsFor n) = .ok m₁) ∧ HostBuffer.fresh n = .error e) := by
  unfold newBuffer
  rw [Action.run_bind_eq_error_iff]
  simp only [Action.run_attempt_eq_ok_iff, Action.run_attempt_eq_error_iff, Action.run_onFailure,
    Action.run_check]
  cases hreserve : m.reserve (8 * slotsFor n) with
  | error e' => simp [and_comm]
  | ok m₁ => cases HostBuffer.fresh n <;> simp [release_of_reserve hreserve, and_comm, eq_comm]

theorem atomic_newBuffer (n : ℕ) : (newBuffer n).Atomic :=
  fun _ _ _ h => (newBuffer_eq_error_iff.mp h).1

theorem newBuffer_ok {b : HostBuffer} (h : (newBuffer n).run m = (.ok b, m')) :
    b = .zeroed n ∧ m'.heap = m.heap ∧ m'.budget.limit = m.budget.limit ∧
      m'.budget.inUse = m.budget.inUse + BitVec.ofNat 64 (8 * slotsFor n) := by
  obtain ⟨hreserve, hfresh⟩ := newBuffer_eq_ok_iff.mp h
  rw [reserve_ok hreserve]
  exact ⟨(HostBuffer.fresh_eq_ok_iff.mp hfresh).2, rfl, rfl, rfl⟩

theorem newBuffer_fits {b : HostBuffer} (h : (newBuffer n).run m = (.ok b, m')) :
    8 * slotsFor n < Word.signedBound :=
  (HostBuffer.fresh_eq_ok_iff.mp (newBuffer_eq_ok_iff.mp h).2).1

theorem newBuffer_failure (h : (newBuffer n).run m = (.error e, m')) :
    e.isRefusal = true ∨ Word.signedBound ≤ 8 * slotsFor n ∧ e = .capacityOverflow := by
  rcases (newBuffer_eq_error_iff.mp h).2 with hreserve | ⟨-, hfresh⟩
  · exact Or.inl (reserve_error hreserve)
  · exact Or.inr (HostBuffer.fresh_eq_error_iff.mp hfresh)

theorem allocDevice_ok {d : Device} {a : Address} (h : m.allocDevice d n = .ok (a, m')) :
    m'.heap.blocks = ⟨d.slot, a.value, List.replicate n 0⟩ :: m.heap.blocks ∧
      m'.budget = m.budget := by
  obtain ⟨⟨a', heap⟩, halloc, heq⟩ := bind_eq_ok_iff.mp h
  cases heq
  exact ⟨Heap.blocks_alloc halloc, rfl⟩

theorem allocDevice_error {d : Device} (h : m.allocDevice d n = .error e) :
    e.isRefusal = true := by
  rcases bind_eq_error_iff.mp h with halloc | ⟨ah, -, hpure⟩
  · rw [Heap.alloc_eq_error halloc]
    rfl
  · cases hpure

/-- Once an allocation is granted, the copy of what fits into it never fails. What allocates and
copies succeeds or changes nothing for this reason. -/
theorem copyTo_of_granted {d : Device} {a : Address} {src : Bytes}
    (h : m.allocDevice d n = .ok (a, m')) (hlen : src.length ≤ n) :
    ∃ m'', m'.copyTo d a src = .ok m'' ∧ m''.budget = m'.budget ∧
      m''.heap.blocks = ⟨d.slot, a.value, zeroFilled n src⟩ :: m.heap.blocks := by
  have hblocks := (allocDevice_ok h).1
  have hfits : src.length ≤ (List.replicate n (0 : UInt8)).length := by
    rw [List.length_replicate]
    exact hlen
  obtain ⟨heap, hcopy, hwritten⟩ := Heap.copyTo_base hblocks rfl rfl hfits
  simp only [overwrite_zeros hlen] at hwritten
  exact ⟨{ m' with heap }, by rw [copyTo, hcopy]; rfl, rfl, hwritten⟩

end Machine

namespace Scope

variable {s s' s'' : Scope} {a : Address} {d : Device} {n : ℕ} {src : Bytes} {e : Failure}

theorem device_of_site (hsite : s.context.site = .device d) : s.context.device = .ok d := by
  rw [Context.device, hsite]

theorem device_eq_ok_iff : s.context.device = .ok d ↔ s.context.site = .device d := by
  rw [Context.device]
  cases s.context.site <;> simp

theorem device_eq_error (h : s.context.device = .error e) : e = .noContextDevice := by
  rw [Context.device] at h
  cases hsite : s.context.site with
  | host =>
    rw [hsite] at h
    exact (Except.error.inj h).symm
  | device d =>
    rw [hsite] at h
    cases h

theorem run_onMachine_eq_iff {α : Type} {x : Action Machine α} {answer : Except Failure α} :
    (onMachine x).run s = (answer, s') ↔
      ∃ m, x.run s.machine = (answer, m) ∧ s' = { s with machine := m } :=
  Action.run_on_eq_iff

theorem atomic_onMachine {α : Type} {x : Action Machine α} (hx : x.Atomic) :
    (onMachine x).Atomic := hx.on fun _ => rfl

theorem allocDevice_eq_ok_iff : (allocDevice n).run s = (.ok a, s') ↔ ∃ d m,
    s.context.site = .device d ∧ s.machine.allocDevice d n = .ok (a, m) ∧
      s' = { s with machine := m }.hold (.device a n) := by
  constructor
  · intro h
    obtain ⟨d, s₁, hcheck, hrest⟩ := Action.run_bind_eq_ok_iff.mp h
    obtain ⟨hd, rfl⟩ := Action.run_check_eq_iff.mp hcheck
    obtain ⟨a', s₂, hasks, hhold⟩ := Action.run_bind_eq_ok_iff.mp hrest
    obtain ⟨m, halloc, rfl⟩ := run_onMachine_eq_iff.mp hasks
    cases hhold
    exact ⟨d, m, device_eq_ok_iff.mp hd, Action.run_step_eq_ok_iff.mp halloc, rfl⟩
  · rintro ⟨d, m, hsite, halloc, rfl⟩
    refine Action.run_bind_eq_ok_iff.mpr ⟨d, s, Action.run_check_eq_iff.mpr
      ⟨device_of_site hsite, rfl⟩, Action.run_bind_eq_ok_iff.mpr ⟨a, _, run_onMachine_eq_iff.mpr
        ⟨m, Action.run_step_eq_ok_iff.mpr halloc, rfl⟩, rfl⟩⟩

theorem allocDevice_eq_error (h : (allocDevice n).run s = (.error e, s')) : s' = s ∧
    (e = .noContextDevice ∧ s.context.site = .host ∨
      ∃ d, s.context.site = .device d ∧ s.machine.allocDevice d n = .error e) := by
  rcases Action.run_bind_eq_error_iff.mp h with hcheck | ⟨d, s₁, hcheck, hrest⟩
  · obtain ⟨hd, rfl⟩ := Action.run_check_eq_iff.mp hcheck
    refine ⟨rfl, Or.inl ⟨device_eq_error hd, ?_⟩⟩
    cases hsite : s'.context.site with
    | host => rfl
    | device d =>
      rw [device_of_site hsite] at hd
      cases hd
  · obtain ⟨hd, rfl⟩ := Action.run_check_eq_iff.mp hcheck
    rcases Action.run_bind_eq_error_iff.mp hrest with hasks | ⟨a, s₂, -, hhold⟩
    · obtain ⟨m, hstep, rfl⟩ := run_onMachine_eq_iff.mp hasks
      obtain ⟨halloc, rfl⟩ := Action.run_step_eq_error_iff.mp hstep
      exact ⟨rfl, Or.inr ⟨d, device_eq_ok_iff.mp hd, halloc⟩⟩
    · cases hhold

theorem allocDevice_ok (hsite : s.context.site = .device d)
    (h : (allocDevice n).run s = (.ok a, s')) :
    s.Gains (.device a n) [⟨d.slot, a.value, List.replicate n 0⟩] s' := by
  obtain ⟨d', m', hsite', halloc, rfl⟩ := allocDevice_eq_ok_iff.mp h
  rw [hsite] at hsite'
  cases hsite'
  obtain ⟨hblocks, hbudget⟩ := Machine.allocDevice_ok halloc
  refine ⟨rfl, hblocks, ?_, ?_, ?_⟩
  · rw [hsite]
    rfl
  · rw [Allocation.reserved, BitVec.add_zero]
    exact congrArg Budget.inUse hbudget
  · exact congrArg Budget.limit hbudget

theorem allocDevice_error (hsite : s.context.site = .device d)
    (h : (allocDevice n).run s = (.error e, s')) : e.isRefusal = true := by
  rcases (allocDevice_eq_error h).2 with ⟨-, hhost⟩ | ⟨d', -, halloc⟩
  · rw [hsite] at hhost
    cases hhost
  · exact Machine.allocDevice_error halloc

/-- Whatever the context is for, device memory is refused, or there is no device to ask. -/
theorem allocDevice_failure (h : (allocDevice n).run s = (.error e, s')) :
    e.isRefusal = true ∨ e = .noContextDevice := by
  rcases (allocDevice_eq_error h).2 with ⟨rfl, -⟩ | ⟨d, -, halloc⟩
  · exact Or.inr rfl
  · exact Or.inl (Machine.allocDevice_error halloc)

theorem atomic_allocDevice (n : ℕ) : (allocDevice n).Atomic :=
  fun _ _ _ h => (allocDevice_eq_error h).1

/-- An allocation with contents that fit is an allocation whose copy always succeeds. -/
theorem allocDeviceWith_cases (s : Scope) (hlen : src.length ≤ n) :
    (∃ d a m m', s.context.site = .device d ∧ s.machine.allocDevice d n = .ok (a, m) ∧
      m.copyTo d a src = .ok m' ∧ (allocDevice n).run s =
        (.ok a, { s with machine := m }.hold (.device a n)) ∧
      (allocDeviceWith n src).run s = (.ok a, { s with machine := m' }.hold (.device a n))) ∨
    ∃ e, (allocDevice n).run s = (.error e, s) ∧ (allocDeviceWith n src).run s = (.error e, s) := by
  rw [allocDeviceWith, if_neg hlen.not_gt]
  rcases hrun : (allocDevice n).run s with ⟨e | a, s₁⟩
  · obtain rfl := atomic_allocDevice n s e s₁ hrun
    exact Or.inr ⟨e, rfl, Action.run_bind_eq_error_iff.mpr (Or.inl hrun)⟩
  · obtain ⟨d, m, hsite, halloc, rfl⟩ := allocDevice_eq_ok_iff.mp hrun
    obtain ⟨m', hcopy, -⟩ := Machine.copyTo_of_granted halloc hlen
    refine Or.inl ⟨d, a, m, m', hsite, halloc, hcopy, rfl, Action.run_bind_eq_ok_iff.mpr
      ⟨a, _, hrun, Action.run_bind_eq_ok_iff.mpr ⟨d, _, Action.run_check_eq_iff.mpr
        ⟨device_of_site hsite, rfl⟩, Action.run_bind_eq_ok_iff.mpr ⟨(), _, run_onMachine_eq_iff.mpr
          ⟨m', Action.run_attempt_eq_ok_iff.mpr hcopy, rfl⟩, rfl⟩⟩⟩⟩

theorem allocDeviceWith_host (hlen : src.length ≤ n) (hsite : s.context.site = .host) :
    (allocDeviceWith n src).run s = (.error .noContextDevice, s) := by
  have hdevice : s.context.device = .error .noContextDevice := by
    rw [Context.device, hsite]
  rw [allocDeviceWith, if_neg hlen.not_gt]
  exact Action.run_bind_eq_error_iff.mpr (Or.inl (Action.run_bind_eq_error_iff.mpr
    (Or.inl (Action.run_check_eq_iff.mpr ⟨hdevice, rfl⟩))))

theorem length_of_allocDeviceWith (h : (allocDeviceWith n src).run s = (.ok a, s')) :
    src.length ≤ n := by
  by_contra hlong
  rw [allocDeviceWith, if_pos (not_le.mp hlong)] at h
  cases h

theorem allocDeviceWith_ok (hsite : s.context.site = .device d)
    (h : (allocDeviceWith n src).run s = (.ok a, s')) :
    s.Gains (.device a n) [⟨d.slot, a.value, zeroFilled n src⟩] s' := by
  have hlen := length_of_allocDeviceWith h
  rcases allocDeviceWith_cases s hlen with
    ⟨d', a', m, m', hsite', hfresh, hcopy, halloc, hboth⟩ | ⟨e, -, hfail⟩
  · rw [hboth] at h
    cases h
    rw [hsite] at hsite'
    cases hsite'
    have hgain := allocDevice_ok hsite halloc
    obtain ⟨m₂, hcopy₂, hbudget, hwritten⟩ := Machine.copyTo_of_granted hfresh hlen
    rw [hcopy] at hcopy₂
    cases hcopy₂
    exact ⟨hgain.context, hwritten, hgain.keys, (congrArg Budget.inUse hbudget).trans hgain.inUse,
      (congrArg Budget.limit hbudget).trans hgain.limit⟩
  · rw [hfail] at h
    cases h

theorem allocDeviceWith_error (hsite : s.context.site = .device d) (hlen : src.length ≤ n)
    (h : (allocDeviceWith n src).run s = (.error e, s')) : e.isRefusal = true := by
  rcases allocDeviceWith_cases s hlen with ⟨_, _, _, _, -, -, -, -, hboth⟩ | ⟨e', hrefused, hfail⟩
  · rw [hboth] at h
    cases h
  · rw [hfail] at h
    cases h
    exact allocDevice_error hsite hrefused

theorem allocDeviceWith_failure (h : (allocDeviceWith n src).run s = (.error e, s')) :
    e.isRefusal = true ∨ e = .noContextDevice ∨ e = .copyTooLong src.length n := by
  rcases Nat.lt_or_ge n src.length with hlong | hlen
  · rw [allocDeviceWith, if_pos hlong] at h
    cases h
    exact Or.inr (Or.inr rfl)
  · rcases allocDeviceWith_cases s hlen with ⟨_, _, _, _, -, -, -, -, hboth⟩ | ⟨e', hrefused, hfail⟩
    · rw [hboth] at h
      cases h
    · rw [hfail] at h
      cases h
      exact (allocDevice_failure hrefused).imp_right Or.inl

theorem atomic_allocDeviceWith (n : ℕ) (src : Bytes) : (allocDeviceWith n src).Atomic := by
  intro s e s' h
  rcases Nat.lt_or_ge n src.length with hlong | hlen
  · rw [allocDeviceWith, if_pos hlong] at h
    exact Action.atomic_fail _ _ _ _ h
  · rcases allocDeviceWith_cases s hlen with ⟨_, _, _, _, -, -, -, -, hboth⟩ | ⟨e', -, hfail⟩
    · rw [hboth] at h
      cases h
    · rw [hfail] at h
      cases h
      rfl

theorem allocHost_eq_ok_iff {b : HostBuffer} : (allocHost n src).run s = (.ok b, s') ↔ ∃ fresh m,
    (Machine.newBuffer n).run s.machine = (.ok fresh, m) ∧ b = fresh.write 0 src ∧
      s' = { s with machine := m }.hold (.host b) := by
  constructor
  · intro h
    obtain ⟨fresh, s₁, hasks, hhold⟩ := Action.run_bind_eq_ok_iff.mp h
    obtain ⟨m, hnew, rfl⟩ := run_onMachine_eq_iff.mp hasks
    cases hhold
    exact ⟨fresh, m, hnew, rfl, rfl⟩
  · rintro ⟨fresh, m, hnew, rfl, rfl⟩
    exact Action.run_bind_eq_ok_iff.mpr ⟨fresh, _, run_onMachine_eq_iff.mpr ⟨m, hnew, rfl⟩, rfl⟩

theorem allocHost_eq_error (h : (allocHost n src).run s = (.error e, s')) :
    s' = s ∧ (Machine.newBuffer n).run s.machine = (.error e, s.machine) := by
  rcases Action.run_bind_eq_error_iff.mp h with hasks | ⟨b, s₁, -, hrest⟩
  · obtain ⟨m, hnew, rfl⟩ := run_onMachine_eq_iff.mp hasks
    obtain rfl := Machine.atomic_newBuffer n _ _ _ hnew
    exact ⟨rfl, hnew⟩
  · cases hrest

theorem atomic_allocHost (n : ℕ) (src : Bytes) : (allocHost n src).Atomic :=
  fun _ _ _ h => (allocHost_eq_error h).1

theorem allocHost_ok {b : HostBuffer} (h : (allocHost n src).run s = (.ok b, s')) :
    s.Gains (.host b) [] s' ∧ b = (HostBuffer.zeroed n).write 0 src := by
  obtain ⟨fresh, m', hnew, rfl, rfl⟩ := allocHost_eq_ok_iff.mp h
  obtain ⟨rfl, hheap, hlimit, hinUse⟩ := Machine.newBuffer_ok hnew
  exact ⟨⟨rfl, congrArg Heap.blocks hheap, rfl, hinUse, hlimit⟩, rfl⟩

theorem allocHost_failure (h : (allocHost n src).run s = (.error e, s')) :
    e.isRefusal = true ∨ Word.signedBound ≤ 8 * slotsFor n ∧ e = .capacityOverflow :=
  Machine.newBuffer_failure (allocHost_eq_error h).2

/-- The buffer shows these bytes to a kernel that runs where the context allocates. -/
def Offers (s : Scope) (b : Buffer) (bs : Bytes) : Prop :=
  b.size = bs.length ∧
    match s.context.site, b.location with
    | .host, .held position =>
      position < s.context.allocations.length ∧ s.load b = .ok bs
    | .device _, .device a =>
      ∃ block ∈ s.machine.heap.blocks, block.base = a.value ∧ bs <+: block.bytes
    | _, _ => False

theorem Offers.load {b : Buffer} {bs : Bytes} (h : s.Offers b bs) : s.load b = .ok bs := by
  obtain ⟨location, size⟩ := b
  obtain ⟨hsize, h⟩ := h
  cases hsite : s.context.site with
  | host =>
    rw [hsite] at h
    cases location with
    | held position => exact h.2
    | device a => exact h.elim
  | device d =>
    rw [hsite] at h
    cases location with
    | held position => exact h.elim
    | device a =>
      obtain ⟨block, hmem, hbase, hprefix⟩ := h
      simp only at hsize
      rw [hsize]
      change s.machine.heap.peek a bs.length = .ok bs
      rw [Heap.peek_base hmem hbase hprefix.length_le, ← List.prefix_iff_eq_take.mp hprefix]

/-- What one more buffer leaves as it was. -/
structure Grows (s s' : Scope) : Prop where
  site : s'.context.site = s.context.site
  ledger : ∀ {m owed}, Ledger m owed s → Ledger m owed s'
  offers : ∀ {b bs}, s.Offers b bs → s'.Offers b bs

theorem Grows.refl (s : Scope) : s.Grows s := ⟨rfl, id, id⟩

theorem Grows.trans (h : s.Grows s') (h' : s'.Grows s'') : s.Grows s'' :=
  ⟨h'.site.trans h.site, fun hs => h'.ledger (h.ledger hs), fun hs => h'.offers (h.offers hs)⟩

theorem load_hold {position : ℕ} {size : ℕ} {x : Allocation}
    (hcontext : s'.context = s.context.hold x)
    (hposition : position < s.context.allocations.length) :
    s'.load ⟨.held position, size⟩ = s.load ⟨.held position, size⟩ := by
  simp only [load, hcontext, Context.hold, List.getElem?_append_left hposition]

theorem Gains.grows {x : Allocation} {new : List Block} (h : s.Gains x new s') : s.Grows s' where
  site := by rw [h.context, Context.site_hold]
  ledger hs := hs.gain h
  offers {b bs} hs := by
    obtain ⟨location, size⟩ := b
    obtain ⟨hsize, hs⟩ := hs
    refine ⟨hsize, ?_⟩
    rw [h.context, Context.site_hold]
    cases hsite : s.context.site with
    | host =>
      rw [hsite] at hs
      cases location with
      | held position =>
        refine ⟨?_, (load_hold h.context hs.1).trans hs.2⟩
        rw [Context.hold, List.length_append]
        exact hs.1.trans_le (Nat.le_add_right _ _)
      | device a => exact hs
    | device d =>
      rw [hsite] at hs
      cases location with
      | held position => exact hs
      | device a =>
        obtain ⟨block, hmem, hshows⟩ := hs
        refine ⟨block, ?_, hshows⟩
        rw [h.blocks]
        exact List.mem_append_right _ hmem

end Scope

end KernelDispatch
