import KernelDispatch.Proofs.Dispatcher.Conditions

/-!
# What a context holds for its inputs

Each input that is materialised puts one allocation into the context, in the order of the inputs:
the handle of a fetched column or the cell of a constant. The buffer of an input is that allocation.
An input that fails leaves the context and the memory as they were; a column that was already
fetched is counted, and its copy is freed again.
-/

namespace KernelDispatch

namespace InputExpr

def isColumn : InputExpr → Bool
  | column _ => true
  | _ => false

def bytes? (S : ColumnStore) : InputExpr → Option Bytes
  | column ref => (S.find? ref.index).map (·.bytes)
  | constant value => value.literalBytes?.map (zeroFilled slotBytes)
  | unresolved _ => none

/-- The buffer of an input in a context at a site, behind `position` others, and what the context
holds for it. -/
inductive HeldBy (S : ColumnStore) (position : ℕ) : Site → InputExpr → Buffer → Allocation → Prop
  | hostColumn {ref : ColumnRef} {c : StoredColumn} (hfind : S.find? ref.index = some c) :
      HeldBy S position .host (column ref) ⟨.held position, c.bytes.length⟩ (.borrowed ⟨c, .host⟩)
  | deviceColumn {d served : Device} {ref : ColumnRef} {c : StoredColumn} (a : Address)
      (hfind : S.find? ref.index = some c) (hserved : S.device = some served) :
      HeldBy S position (.device d) (column ref) ⟨.device a, c.bytes.length⟩
        (.borrowed ⟨c, .device served a⟩)
  | constant {site : Site} {value : Scalar} {bytes : Bytes} {b : Buffer} {x : Allocation}
      {new : List Block} (hbytes : value.literalBytes? = some bytes)
      (hcell : b.IsCell position bytes site x new) : HeldBy S position site (constant value) b x

end InputExpr

/-- Fetches that came before a failure of the input that they were for. -/
def Failure.fetched : Failure → ℕ
  | .rowCountMismatch _ _ _ _ => 1
  | _ => 0

theorem Failure.fetched_of_isRefusal {e : Failure} (h : e.isRefusal = true) : e.fetched = 0 := by
  cases e <;> first | rfl | exact absurd h Bool.false_ne_true

def Scope.counting (s : Scope) (n : ℕ) : Scope :=
  { s with machine := { s.machine with fetches := s.machine.fetches + n } }

namespace Machine

variable {m m' : Machine} {n : ℕ}

theorem fetches_of_newBuffer {b : HostBuffer} (h : (newBuffer n).run m = (.ok b, m')) :
    m'.fetches = m.fetches := by
  rw [reserve_ok (newBuffer_eq_ok_iff.mp h).1]

theorem fetches_of_allocDevice {d : Device} {a : Address} (h : m.allocDevice d n = .ok (a, m')) :
    m'.fetches = m.fetches := by
  obtain ⟨ah, -, heq⟩ := bind_eq_ok_iff.mp h
  cases heq
  rfl

theorem fetches_of_copyTo {d : Device} {a : Address} {src : Bytes} (h : m.copyTo d a src = .ok m') :
    m'.fetches = m.fetches := by
  obtain ⟨heap, -, heq⟩ := bind_eq_ok_iff.mp h
  cases heq
  rfl

end Machine

theorem Scope.fetches_of_cell {s s' : Scope} {bytes : Bytes} {b : Buffer}
    (hlen : bytes.length ≤ slotBytes) (h : (cell bytes).run s = (.ok b, s')) :
    s'.machine.fetches = s.machine.fetches := by
  rw [run_cell hlen] at h
  cases hsite : s.context.site with
  | host =>
    simp only [hsite] at h
    obtain ⟨buffer, s₁, halloc, hpure⟩ := Action.run_bind_eq_ok_iff.mp h
    cases hpure
    obtain ⟨fresh, m, hnew, -, rfl⟩ := allocHost_eq_ok_iff.mp halloc
    exact Machine.fetches_of_newBuffer hnew
  | device d =>
    simp only [hsite] at h
    obtain ⟨a, s₁, halloc, hpure⟩ := Action.run_bind_eq_ok_iff.mp h
    cases hpure
    rcases allocDeviceWith_cases s hlen with ⟨d', a', m, m', -, hfresh, hcopy, -, hboth⟩ |
      ⟨e, -, hfail⟩
    · rw [hboth] at halloc
      cases halloc
      exact (Machine.fetches_of_copyTo hcopy).trans (Machine.fetches_of_allocDevice hfresh)
    · rw [hfail] at halloc
      cases halloc

namespace ColumnStore

variable {S : ColumnStore} {ref : ColumnRef} {deviceId : DeviceId} {m m' : Machine}
    {c : FetchedColumn}
  {site : Site}

/-- A column is where a context at this site wants it: on the host, or on the device of the
store. -/
def ServedAt (S : ColumnStore) (c : FetchedColumn) : Site → Prop
  | .host => c.site = .host
  | .device _ => ∃ d a, S.device = some d ∧ c.site = .device d a

/-- A fetch is counted once, and serves a column where the site wants it. -/
theorem fetch_served
    (h : (S.fetch ref site.deviceType.memoryLevel deviceId).run m = (.ok c, m')) :
    m'.fetches = m.fetches + 1 ∧ S.ServedAt c site := by
  unfold fetch at h
  cases hfind : S.find? ref.index with
  | none =>
    rw [hfind] at h
    cases h
  | some column =>
    rw [hfind] at h
    obtain ⟨c₁, m₁, hplace, hcount⟩ := Action.run_bind_eq_ok_iff.mp h
    cases hcount
    cases site with
    | host =>
      cases hplace
      exact ⟨rfl, rfl⟩
    | device d =>
      simp only [place, Site.deviceType, DeviceType.memoryLevel] at hplace
      cases hd : S.device with
      | none =>
        rw [hd] at hplace
        cases hplace
      | some served =>
        simp only [hd] at hplace
        by_cases hid : served.id = deviceId
        · rw [if_pos hid] at hplace
          rcases copyToDevice_cases column served m with ⟨a, m₂, m₃, halloc, hcopy, hrun⟩ |
            ⟨e, -, hrun⟩
          · rw [hrun] at hplace
            cases hplace
            refine ⟨congrArg (· + 1) ?_, served, a, hd, rfl⟩
            exact (Machine.fetches_of_copyTo hcopy).trans (Machine.fetches_of_allocDevice halloc)
          · rw [hrun] at hplace
            cases hplace
        · rw [if_neg hid] at hplace
          cases hplace

theorem release_of_serves {level : MemoryLevel} (h : Serves level m c m')
    (hfetches : m'.fetches = m.fetches + 1) :
    c.release m' = { m with fetches := m.fetches + 1 } := by
  obtain ⟨hblocks, hbudget⟩ := h.release
  have hheap : (c.release m').heap = m.heap := Heap.ext_blocks hblocks
  have hcount : (c.release m').fetches = m'.fetches := by
    unfold FetchedColumn.release
    split <;> rfl
  rw [← hheap, ← hbudget, ← hfetches, ← hcount]

end ColumnStore

namespace Inputs

variable {store : ColumnStore} {function : String} {deviceId : DeviceId} {index : ℕ}
  {rows : Option ℕ}

theorem fetched_of_look {ref : ColumnRef} {level : MemoryLevel} {e : Failure}
    (h : store.look ref level deviceId = .error e) : e.fetched = 0 := by
  unfold ColumnStore.look at h
  repeat' split at h
  all_goals cases h <;> rfl

theorem heldBy_borrow {ref : ColumnRef} {c : FetchedColumn} (s : Scope) (m' : Machine)
    (hfind : store.find? ref.index = some c.source)
    (hsite : store.ServedAt c s.context.site) :
    (InputExpr.column ref).HeldBy store s.context.allocations.length s.context.site
      ({ s with machine := m' }.borrow c).1 (.borrowed c) := by
  obtain ⟨source, site⟩ := c
  generalize hheld : s.context.site = held at hsite ⊢
  cases held with
  | host =>
    subst hsite
    exact .hostColumn hfind
  | device d =>
    obtain ⟨served, a, hserved, hplace⟩ := hsite
    subst hplace
    exact .deviceColumn a hfind hserved

/-- A column that is materialised is borrowed. One that is turned down after it was fetched is
counted and given back. -/
theorem meets_columnHeld (s₀ : Scope) (ref : ColumnRef) :
    Action.Meets (· = s₀) (column store function deviceId index rows ref)
      (fun bn s => s.machine.fetches = s₀.machine.fetches + 1 ∧ ∃ a new, s₀.Gains a new s ∧
        (InputExpr.column ref).HeldBy store s₀.context.allocations.length s₀.context.site bn.1 a)
      (fun e s => s = s₀.counting e.fetched) := by
  apply Action.meets_read_bind
  apply Action.meets_bind fun c s => ∃ m',
    (store.fetch ref s₀.context.memoryLevel deviceId).run s₀.machine = (.ok c, m') ∧
      s = { s₀ with machine := m' }
  · apply (Scope.atomic_onMachine (ColumnStore.atomic_fetch _ _ _ _)).meets
    · rintro s c s' rfl hrun
      exact Scope.run_onMachine_eq_iff.mp hrun
    · rintro s e rfl hrun
      obtain ⟨m', hfetch, -⟩ := Scope.run_onMachine_eq_iff.mp hrun
      have hzero : e.fetched = 0 :=
        (ColumnStore.fetch_error hfetch).2.elim Failure.fetched_of_isRefusal fetched_of_look
      rw [hzero]
      rfl
  · intro c
    by_cases hagrees : agrees rows c.count = true
    · rw [if_pos hagrees]
      rintro s ⟨m', hfetch, rfl⟩
      obtain ⟨hlook, hserves⟩ := ColumnStore.fetch_ok hfetch
      obtain ⟨hfetches, hsite⟩ := ColumnStore.fetch_served hfetch
      obtain ⟨⟨new, hgain⟩, -⟩ := Scope.borrow_of_serves hserves
      exact ⟨hfetches, .borrowed c, new, hgain,
        heldBy_borrow s₀ m' (ColumnStore.look_eq_ok_iff.mp hlook).1 hsite⟩
    · rw [if_neg hagrees]
      rintro s ⟨m', hfetch, rfl⟩
      obtain ⟨-, hserves⟩ := ColumnStore.fetch_ok hfetch
      obtain ⟨hfetches, -⟩ := ColumnStore.fetch_served hfetch
      have hreleased := ColumnStore.release_of_serves hserves hfetches
      change ({ s₀ with machine := c.release m' } : Scope) = s₀.counting 1
      rw [hreleased]
      rfl

theorem meets_literalHeld (s₀ : Scope) (value : Scalar) :
    Action.Meets (· = s₀) (Scope.literal value)
      (fun b s => s.machine.fetches = s₀.machine.fetches ∧ ∃ a new, s₀.Gains a new s ∧
        (InputExpr.constant value).HeldBy store s₀.context.allocations.length s₀.context.site b a)
      (fun e s => s = s₀.counting e.fetched) := by
  rw [Scope.literal]
  cases hbytes : value.literalBytes? with
  | none =>
    apply Action.meets_fail
    rintro s rfl
    rfl
  | some bytes =>
    have hlen : bytes.length ≤ slotBytes := Scalar.length_of_literalBytes? hbytes
    apply (Scope.atomic_cell bytes).meets
    · rintro s b s' rfl hcell
      obtain ⟨a, new, hgain, hheld⟩ := Scope.gains_cell hlen hcell
      exact ⟨Scope.fetches_of_cell hlen hcell, a, new, hgain, .constant hbytes hheld⟩
    · rintro s e rfl hcell
      rw [Failure.fetched_of_isRefusal (Scope.cell_error hlen hcell).2]
      rfl

theorem meets_oneHeld (s₀ : Scope) (input : InputExpr) :
    Action.Meets (· = s₀) (one store function deviceId index rows input)
      (fun br s => s.machine.fetches = s₀.machine.fetches + input.isColumn.toNat ∧
        ∃ a new, s₀.Gains a new s ∧
          input.HeldBy store s₀.context.allocations.length s₀.context.site br.1 a)
      (fun e s => s = s₀.counting e.fetched) := by
  cases input with
  | column ref => exact (meets_columnHeld s₀ ref).bind (fun _ _ h => h) fun _ =>
      Action.meets_pure fun _ h => h
  | constant value =>
    exact (meets_literalHeld s₀ value).bind (fun _ _ h => h) fun _ => Action.meets_pure fun _ h => h
  | unresolved description =>
    apply Action.meets_fail
    rintro s rfl
    rfl

end Inputs

end KernelDispatch
