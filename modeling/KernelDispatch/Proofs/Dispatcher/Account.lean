import KernelDispatch.Proofs.Output.Allocation
import KernelDispatch.Proofs.Output.CopyBack

/-!
# The account of an invocation

An invocation ends in one of three ways: it stops before its kernel runs, the kernel runs and the
result is settled, or the kernel runs and settling its row count fails. What the kernel was given is
forecast, and how its row count is settled is said here once for either kind of device, on numbers
alone. The account holds what the invocation leaves reserved beside its context.
-/

namespace KernelDispatch

/-- A result of `rows` rows out of `capacity` that reads back what was stored. -/
structure ResultSet.Shows (plan : Plan) (capacity rows : ℕ) (stores : List Store) (r : ResultSet) :
    Prop where
  types : r.types = plan.outputTypes
  footprint : r.storage.footprint = 8 * (plan.outputs.length * capacity)
  capacity : r.capacity = capacity
  entries : r.entries = rows
  slots : ∀ column < plan.outputs.length,
    r.slots column = .ok ((List.range rows).map (storedWord stores column))

/-- Results that a reader cannot tell apart. -/
structure ResultSet.SameAs (r r' : ResultSet) : Prop where
  types : r'.types = r.types
  capacity : r'.capacity = r.capacity
  entries : r'.entries = r.entries
  slots : ∀ column, r'.slots column = r.slots column

theorem ResultSet.slots_of_le {r : ResultSet} {column : ℕ} (h : r.types.length ≤ column) :
    r.slots column = .error (.columnOutOfBounds column r.types.length) := by
  rw [slots, columnType, List.getElem?_eq_none h]
  rfl

theorem ResultSet.Shows.sameAs {plan : Plan} {capacity rows : ℕ} {stores : List Store}
    {r r' : ResultSet} (h : r.Shows plan capacity rows stores)
    (h' : r'.Shows plan capacity rows stores) : r.SameAs r' where
  types := h'.types.trans h.types.symm
  capacity := h'.capacity.trans h.capacity.symm
  entries := h'.entries.trans h.entries.symm
  slots := by
    intro column
    rcases Nat.lt_or_ge column plan.outputs.length with hlt | hge
    · rw [h.slots column hlt, h'.slots column hlt]
    · have hlength : plan.outputTypes.length ≤ column := by rwa [Plan.outputTypes, List.length_map]
      rw [ResultSet.slots_of_le (by rwa [h'.types]), ResultSet.slots_of_le (by rwa [h.types]),
        h.types, h'.types]

/-- What a kernel is given according to a forecast: columns of zeros and a fresh row count cell. -/
def Forecast.view (f : Forecast) (columns : ℕ) (countCell : Word) : KernelView where
  inputs := f.inputs
  rows := BitVec.ofNat 64 f.rows
  outputs := List.replicate columns (List.replicate f.capacity 0)
  countCell := countCell

def CompiledFunction.bodyFor (code : CompiledFunction) : DeviceType → Option KernelBody
  | .cpu => code.host
  | .gpu => code.device.map (·.body)

theorem CompiledFunction.hostBody_eq_ok_iff {code : CompiledFunction} {body : KernelBody} :
    code.hostBody = .ok body ↔ code.bodyFor .cpu = some body := by
  unfold hostBody bodyFor
  cases code.host <;> simp

theorem CompiledFunction.deviceKernel_eq_ok_iff {code : CompiledFunction} {kernel : DeviceKernel} :
    code.deviceKernel = .ok kernel ↔ code.device = some kernel := by
  unfold deviceKernel
  cases code.device <;> simp

theorem CompiledFunction.exists_hostBody {code : CompiledFunction}
    (h : (code.bodyFor .cpu).isSome = true) : ∃ body, code.hostBody = .ok body := by
  obtain ⟨body, hbody⟩ := Option.isSome_iff_exists.mp h
  exact ⟨body, hostBody_eq_ok_iff.mpr hbody⟩

theorem CompiledFunction.exists_deviceKernel {code : CompiledFunction}
    (h : (code.bodyFor .gpu).isSome = true) : ∃ kernel, code.deviceKernel = .ok kernel := by
  rw [bodyFor, Option.isSome_map] at h
  obtain ⟨kernel, hkernel⟩ := Option.isSome_iff_exists.mp h
  exact ⟨kernel, deviceKernel_eq_ok_iff.mpr hkernel⟩

def withinCapacity (capacity rows : ℕ) : Except Failure ℕ :=
  if rows ≤ capacity then .ok rows else .error (.tooManyRows rows capacity)

namespace Dispatcher

variable (D : Dispatcher) (plan : Plan)

def freshCount : Site → Word
  | .host => -1
  | .device _ => D.config.sentinel

/-- Rows of the result of a kernel that had this effect, or why there is none. -/
def settle (capacity : ℕ) (before : Word) (effect : KernelEffect) : Site → Except Failure ℕ
  | .host =>
    if effect.status = 0 then
      let reported := effect.count.getD before
      if reported.toInt < 0 then .error (.rowCountUnset plan.name reported)
      else withinCapacity capacity reported.toNat
    else .error (.kernelStatus plan.name effect.status)
  | .device d => do
    D.synchronize d
    withinCapacity capacity (← D.reportedRows plan capacity (effect.count.getD before))

/-- The kernel has run once, on what was expected of it. -/
structure Ran (code : CompiledFunction) (site : Site) (expected : Except Failure Forecast)
    (f : Forecast) (effect : KernelEffect) (i : Invocation) : Prop where
  expected : expected = .ok f
  request : ∃ request, i.requests = [request] ∧
    f.capacity = D.initializer.roomFor request.request.rows
  run : ∃ run body, i.kernelRuns = [run] ∧ code.bodyFor site.deviceType = some body ∧
    run.view = f.view plan.outputs.length (D.freshCount site) ∧ effect = body run.view

variable (code : CompiledFunction) (site : Site) (expected : Except Failure Forecast) (m : Machine)

/-- The invocation has a result, whose storage is all that it leaves reserved. -/
def Answers (r : ResultSet) (i : Invocation) : Prop :=
  Ledger m r.storage.footprint i.scope ∧ ∃ f effect rows, D.Ran plan code site expected f effect i ∧
    D.settle plan f.capacity (D.freshCount site) effect site = .ok rows ∧
    r.Shows plan f.capacity rows effect.stores

/-- The invocation has failed, before its kernel ran or in settling its row count, while it has
`owed` bytes reserved. -/
def Fails (owed : ℕ) (e : Failure) (i : Invocation) : Prop :=
  Ledger m owed i.scope ∧
    ((i.kernelRuns = [] ∧ (e.isRefusal = true ∨ expected = .error e)) ∨
      ∃ f effect, D.Ran plan code site expected f effect i ∧
        D.settle plan f.capacity (D.freshCount site) effect site = .error e)

end Dispatcher

theorem Dispatcher.Fails.releaseOutput {D : Dispatcher} {plan : Plan} {code : CompiledFunction}
    {site : Site} {expected : Except Failure Forecast} {m : Machine} {n : ℕ} {e : Failure}
    {i : Invocation} (h : D.Fails plan code site expected m (0 + n) e i) :
    D.Fails plan code site expected m 0 e (i.releaseOutput n) := by
  obtain ⟨hledger, hways⟩ := h
  refine ⟨hledger.repay, hways.imp_right ?_⟩
  rintro ⟨f, effect, hran, hsettle⟩
  exact ⟨f, effect, ⟨hran.expected, hran.request, hran.run⟩, hsettle⟩

theorem eq_of_kernelRows {rows : ℕ} {told : Word} (h : kernelRows rows = .ok told) :
    told = BitVec.ofNat 64 rows := by
  unfold kernelRows at h
  split_ifs at h
  exact (Except.ok.inj h).symm

section Zeros

theorem wordsOf_zeros (n : ℕ) : wordsOf (List.replicate (8 * n) 0) = List.replicate n 0 := by
  rw [wordsOf_eq, List.length_replicate, Nat.mul_div_cancel_left n (by omega),
    List.eq_replicate_iff]
  refine ⟨by simp, ?_⟩
  intro w hw
  obtain ⟨i, hi, rfl⟩ := List.mem_map.mp hw
  rw [List.mem_range] at hi
  have hzeros : slice (List.replicate (8 * n) (0 : UInt8)) (8 * i) 8 = List.replicate 8 0 := by
    rw [slice, List.drop_replicate, List.take_replicate, Nat.min_eq_left (by omega)]
  rw [hzeros]
  rfl

theorem columns_of_zeros (columns capacity n : ℕ) (hroom : 8 * (columns * capacity) ≤ n) :
    ((List.range columns).map fun column =>
        wordsOf (slice (List.replicate n 0) (8 * (column * capacity)) (8 * capacity))) =
      List.replicate columns (List.replicate capacity 0) := by
  rw [List.eq_replicate_iff]
  refine ⟨by simp, ?_⟩
  intro words hwords
  obtain ⟨column, hcolumn, rfl⟩ := List.mem_map.mp hwords
  have hcolumns : (column + 1) * capacity ≤ columns * capacity :=
    Nat.mul_le_mul_right _ (List.mem_range.mp hcolumn)
  rw [Nat.add_mul, one_mul] at hcolumns
  rw [slice, List.drop_replicate, List.take_replicate, Nat.min_eq_left (by omega), wordsOf_zeros]

end Zeros

theorem OutputBuffers.Zeroed.shows {plan : Plan} {capacity rows : ℕ} {o : OutputBuffers}
    {stores : List Store} {r : ResultSet} (ho : o.Zeroed plan capacity)
    (htypes : r.types = o.result.types) (hcapacity : r.capacity = o.result.capacity)
    (hfootprint : r.storage.footprint = o.footprint) (hentries : r.entries = rows)
    (hbytes : ∀ column < plan.outputs.length, ∀ row < rows, ∀ k < 8,
      r.storage.padded[8 * (column * capacity) + 8 * row + k]? =
        some (storedByte stores column row k)) :
    r.Shows plan capacity rows stores where
  types := htypes.trans ho.types
  footprint := hfootprint.trans ho.footprint
  capacity := hcapacity.trans ho.capacity
  entries := hentries
  slots := by
    intro column hcolumn
    have hcount : r.columnCount = plan.outputs.length := by
      rw [ResultSet.columnCount, htypes, ← ResultSet.columnCount, ho.columnCount]
    rw [r.slots_of_stores (by rw [hcount]; exact hcolumn), hentries]
    intro row hrow k hk
    rw [ResultSet.columnOffset, hcapacity, ho.capacity]
    exact hbytes column hcolumn row (hentries ▸ hrow) k hk

end KernelDispatch
