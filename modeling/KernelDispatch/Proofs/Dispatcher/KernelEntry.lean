import KernelDispatch.Proofs.Dispatcher.Conditions
import KernelDispatch.Proofs.Dispatcher.Reconciliation

/-!
# What a kernel sees

At its entry a kernel finds the inputs of its plan in order, the common row count, and output
columns of zeros. On a device all of it lies in live blocks that have no byte in common. Through the
addresses that it is given a kernel changes the output columns, the row count cell and the error
cell, each column word by word, and no other block.
-/

namespace KernelDispatch

theorem Word.toInt_ofNat_of_lt {n : ℕ} (h : n < signedBound) : (BitVec.ofNat 64 n).toInt = n := by
  rw [signedBound, UInt64.size] at h
  have hn : (BitVec.ofNat 64 n).toNat = n := by
    rw [BitVec.toNat_ofNat]
    omega
  rw [BitVec.toInt_eq_toNat_of_lt (by omega), hn]

/-- The bytes that an input is read as: those of a stored column, or of a constant and zeros behind
it. -/
def InputExpr.ReadsAs (S : ColumnStore) : InputExpr → Bytes → Prop
  | .column ref, bs => ∃ column, S.find? ref.index = some column ∧ bs = column.bytes
  | .constant value, bs =>
    ∃ stored, value.literalBytes? = some stored ∧ bs = zeroFilled slotBytes stored
  | .unresolved _, _ => False

namespace Inputs

variable {store : ColumnStore} {function : String} {level : MemoryLevel} {deviceId : DeviceId}
  {index : ℕ} {rows now : Option ℕ}

theorem reads_of_forecastOne {input : InputExpr} {bytes : Bytes}
    (h : forecastOne store function level deviceId index rows input = .ok (bytes, now)) :
    input.ReadsAs store bytes := by
  cases input with
  | column ref =>
    obtain ⟨c, hlook, h⟩ := bind_eq_ok_iff.mp h
    split_ifs at h
    cases h
    exact ⟨c, (ColumnStore.look_eq_ok_iff.mp hlook).1, rfl⟩
  | constant value =>
    rw [forecastOne] at h
    split at h
    · rename_i stored hstored
      cases h
      exact ⟨stored, hstored, rfl⟩
    · cases h
  | unresolved description => cases h

theorem reads_of_forecastFrom {inputs : List InputExpr} {bytes : List Bytes}
    (h : forecastFrom store function level deviceId index rows inputs = .ok (bytes, now)) :
    List.Forall₂ (InputExpr.ReadsAs store) inputs bytes := by
  induction inputs generalizing index rows bytes with
  | nil =>
    cases h
    exact .nil
  | cons input rest ih =>
    obtain ⟨⟨first, next⟩, hone, h⟩ := bind_eq_ok_iff.mp h
    obtain ⟨⟨others, last⟩, hrest, heq⟩ := bind_eq_ok_iff.mp h
    cases heq
    exact .cons (reads_of_forecastOne hone) (ih hrest)

end Inputs

def Block.Apart (b c : Block) : Prop := b.stop ≤ c.base ∨ c.stop ≤ b.base

theorem Heap.apart (h : Heap) : h.blocks.Pairwise Block.Apart :=
  h.sorted.imp fun hle => Or.inr ((Nat.le_of_lt (Block.stop_lt_limit _)).trans hle)

def Block.pointer (b : Block) : Word := BitVec.ofNat 64 b.base

theorem Heap.value_pointer {h : Heap} {b : Block} (hb : b ∈ h.blocks) :
    (Address.mk b.pointer).value = b.base := by
  have hspace := h.inSpace b hb
  have hstop := b.stop_lt_limit
  rw [Block.stop] at hstop
  exact Address.value_ofNat (by omega)

theorem Buffer.Starts.pointer {b : Buffer} {block : Block} (h : b.Starts block) :
    b.pointer = block.pointer := by
  obtain ⟨location, size⟩ := b
  obtain ⟨a, hlocation, hbase⟩ := h
  simp only at hlocation
  subst hlocation
  rw [Block.pointer, hbase, Address.value, BitVec.ofNat_toNat, BitVec.setWidth_eq]
  rfl

namespace LaunchMemory

/-- What an effect makes of the memory of a launch. The output columns hold word by word what was
last stored there, the row count cell what was reported, and no block but these and the error cell
differs. -/
def Changes (L : LaunchMemory) (effect : KernelEffect) (before after : Heap) : Prop :=
  ∃ mirror error, { L with mirror, count := effect.count.getD L.count, error }.Holds after ∧
    (∀ b ∈ before.blocks, b ∉ [L.mirrorBlock, L.countBlock, L.errorBlock] → b ∈ after.blocks) ∧
    ∀ column < L.columns, ∀ row < L.capacity, ∀ k < 8,
      mirror[8 * (column * L.capacity) + 8 * row + k]? =
        some (storedByte effect.stores column row k)

variable {L : LaunchMemory} {own rest : List Block} {h h' : Heap}

theorem Holds.reached_perm (hL : L.Holds h) (holder : L.older = own.reverse ++ rest) :
    h.blocks.Perm ((L.fresh ++ own) ++ rest) := by
  rw [hL.blocks, holder, ← List.append_assoc]
  exact ((own.reverse_perm).append_left _).append_right _

theorem Holds.live (hL : L.Holds h) (holder : L.older = own.reverse ++ rest) {b : Block}
    (hb : b ∈ L.fresh ++ own) : b ∈ h.blocks :=
  (hL.reached_perm holder).mem_iff.mpr (List.mem_append_left _ hb)

theorem Holds.apart (hL : L.Holds h) (holder : L.older = own.reverse ++ rest) :
    (L.fresh ++ own).Pairwise Block.Apart := by
  have hapart := (hL.reached_perm holder).pairwise h.apart fun hbc => hbc.symm
  exact (List.pairwise_append.mp hapart).1

theorem Holds.unchanged {mirror error : Bytes} {count : Word} (hL : L.Holds h)
    (hL' : { L with mirror, count, error }.Holds h') {b : Block} (hb : b ∈ h.blocks)
    (hne : b ∉ [L.mirrorBlock, L.countBlock, L.errorBlock]) : b ∈ h'.blocks := by
  rw [hL.blocks, fresh] at hb
  rw [hL'.blocks, fresh]
  simp only [List.mem_cons, List.not_mem_nil, or_false, not_or] at hne
  obtain ⟨hmirror, hcount, herror⟩ := hne
  simp only [List.mem_append, List.mem_cons, List.not_mem_nil, or_false, hmirror, hcount, herror,
    false_or] at hb
  rcases hb with (rfl | rfl | rfl) | holder
  · exact List.mem_append_left _ (by simp [columnArray])
  · exact List.mem_append_left _ (by simp [rowBlock])
  · exact List.mem_append_left _ (by simp [inputArray])
  · exact List.mem_append_right _ holder

theorem Holds.changes {n : ℕ} (hL : L.Holds h) (hzeros : L.mirror = List.replicate n 0)
    (inputSizes : List ℕ) (effect : KernelEffect) :
    ∃ after, L.params.apply (L.shape inputSizes) h effect = .ok after ∧
    L.Changes effect h after := by
  obtain ⟨after, error, happly, hafter⟩ := hL.apply inputSizes effect
  refine ⟨after, happly, _, error, hafter, fun b => hL.unchanged hafter, ?_⟩
  intro column hcolumn row hrow k hk
  have hroom := hL.room
  rw [extent, hzeros, List.length_replicate] at hroom
  rw [hzeros]
  exact getElem?_foldl_storeBytes effect.stores hroom hcolumn hrow hk

end LaunchMemory

/-- What a launch finds in memory `L` with the blocks `own` of its inputs, and what a kernel can do
to it. -/
structure LaunchState.Provides (launch : LaunchState) (L : LaunchMemory) (own : List Block)
    (view : KernelView) : Prop where
  reads : launch.params.view launch.shape launch.memory = .ok view
  /-- The blocks of the five cells in the order of the kernel's parameters. -/
  cells : List.Forall₂ (fun a b => b.base = a.value) launch.params.cells
    [L.errorBlock, L.inputArray, L.rowBlock, L.columnArray, L.countBlock]
  inputs : List.Forall₂ Block.Keeps own view.inputs
  inputEntries : ∀ i (hi : i < own.length), ∃ a,
    KernelParams.entry launch.memory launch.params.inputs i = .ok a ∧ a.value = own[i].base
  outputEntries : ∀ column < L.columns, ∃ a,
    KernelParams.entry launch.memory launch.params.outputs column = .ok a ∧
      a.value = L.mirrorBlock.base + 8 * (column * L.capacity)
  room : 8 * (L.columns * L.capacity) ≤ L.mirrorBlock.bytes.length
  live : ∀ b ∈ L.fresh ++ own, b ∈ launch.memory.blocks
  apart : (L.fresh ++ own).Pairwise Block.Apart
  effects : ∀ effect, ∃ after,
    launch.params.apply launch.shape launch.memory effect = .ok after ∧
      L.Changes effect launch.memory after

namespace Dispatcher

/-- The memory of a launch with the blocks `own` of its inputs, in front of older blocks. -/
def entryMemory (D : Dispatcher) (plan : Plan) (d : Device) (params : KernelParams)
    (storage : Address) (own : List Block) (rows capacity : ℕ) (older : List Block) :
    LaunchMemory where
  slot := d.slot
  params := params
  storage := storage
  pointers := own.map Block.pointer
  told := BitVec.ofNat 64 rows
  columns := plan.outputs.length
  capacity := capacity
  mirror := mirrorBytes plan capacity
  count := D.config.sentinel
  error := List.replicate slotBytes 0
  older := own.reverse ++ older

variable {D : Dispatcher} {plan : Plan} {d : Device} {params : KernelParams} {storage : Address}
  {own older : List Block} {rows capacity : ℕ} {h : Heap}

theorem stagedMemory_eq {buffers : List Buffer} (hstarts : List.Forall₂ Buffer.Starts buffers own) :
    D.stagedMemory plan capacity d buffers (BitVec.ofNat 64 rows) params storage
        (own.reverse ++ older) =
      D.entryMemory plan d params storage own rows capacity older := by
  have hpointers : buffers.map Buffer.pointer = own.map Block.pointer := by
    rw [← List.forall₂_eq_eq_eq, List.forall₂_map_left_iff, List.forall₂_map_right_iff]
    exact hstarts.imp fun _ _ => Buffer.Starts.pointer
  rw [stagedMemory, hpointers, entryMemory]

theorem provides_of_holds {inputSizes : List ℕ} {view : KernelView}
    (hL : (D.entryMemory plan d params storage own rows capacity older).Holds h)
    (hview : params.view ⟨inputSizes, plan.outputs.length, capacity⟩ h = .ok view)
    (hkeeps : List.Forall₂ Block.Keeps own view.inputs) :
    LaunchState.Provides ⟨params, ⟨inputSizes, plan.outputs.length, capacity⟩, h⟩
      (D.entryMemory plan d params storage own rows capacity older) own view where
  reads := hview
  cells := .cons rfl (.cons rfl (.cons rfl (.cons rfl (.cons rfl .nil))))
  inputs := hkeeps
  inputEntries := by
    intro i hi
    let L := D.entryMemory plan d params storage own rows capacity older
    have hpointer : i < (own.map Block.pointer).length := by rwa [List.length_map]
    have hentry : KernelParams.entry h params.inputs i = .ok ⟨(own.map Block.pointer)[i]⟩ :=
      KernelParams.entry_of_array (b := L.inputArray)
        (hL.mem (by simp [LaunchMemory.fresh, L])) rfl rfl hpointer
    rw [List.getElem_map] at hentry
    exact ⟨_, hentry, Heap.value_pointer
      (hL.live rfl (List.mem_append_right _ (List.getElem_mem hi)))⟩
  outputEntries := by
    intro column hcolumn
    refine ⟨_, hL.column_entry hcolumn, Heap.value_advance_of_mem
      (hL.mem (by simp [LaunchMemory.fresh])) rfl ?_⟩
    have hcolumns := Nat.mul_le_mul_right capacity (Nat.le_of_lt hcolumn)
    exact (Nat.mul_le_mul_left 8 hcolumns).trans hL.room
  room := hL.room
  live b hb := hL.live rfl hb
  apart := hL.apart rfl
  effects effect := hL.changes rfl inputSizes effect

theorem forecast_ok {f : CompiledFunction} {columns : ColumnStore} {site : Site} {given : Forecast}
    (h : D.forecast plan f columns site = .ok given) :
    Inputs.forecastFrom columns plan.name site.deviceType.memoryLevel D.config.deviceId 0 none
        plan.inputs = .ok (given.inputs, some given.rows) ∧
      D.forecastCapacity plan site given.rows = .ok given.capacity ∧
      given.rows < Word.signedBound := by
  obtain ⟨bytes, rows, hinputs, hrun⟩ := forecast_eq_ok_iff.mp h
  obtain ⟨hgiven, -, htold, hcapacity, -⟩ := forecastRun_eq_ok_iff.mp hrun
  rw [hgiven]
  exact ⟨hinputs, hcapacity, htold⟩

/-- Output is requested for the scaled row count, and the initializer makes its room of that. -/
theorem scaled_of_forecastCapacity {site : Site} {requested : ℕ}
    (h : D.forecastCapacity plan site rows = .ok capacity)
    (hcapacity : capacity = D.initializer.roomFor requested) :
    plan.rowCapacity rows = .ok requested := by
  obtain ⟨scaled, hscaled, h⟩ := bind_eq_ok_iff.mp h
  obtain ⟨room, hroom, h⟩ := bind_eq_ok_iff.mp h
  obtain ⟨_, -, heq⟩ := bind_eq_ok_iff.mp h
  cases heq
  rw [hscaled]
  cases hinitializer : D.initializer with
  | failing message =>
    rw [hinitializer] at hroom
    cases hroom
  | columns =>
    rw [hinitializer] at hroom hcapacity
    obtain ⟨_, -, heq⟩ := bind_eq_ok_iff.mp hroom
    cases heq
    exact congrArg Except.ok hcapacity
  | roomier extraRows =>
    rw [hinitializer] at hroom hcapacity
    obtain ⟨_, -, heq⟩ := bind_eq_ok_iff.mp hroom
    cases heq
    exact congrArg Except.ok (Nat.add_right_cancel hcapacity)

variable {table : Table} {code : Option CompiledFunction} {columns : ColumnStore}
  {target : DeviceType} {m : Machine} {run : KernelRun}

/-- The run of a kernel is one that was forecast, found where it has been staged. -/
theorem finds_of_run (hrun : run ∈ (D.execute plan table code columns target m).kernelRuns) :
    ∃ f site given, code = some f ∧ site.deviceType = target ∧
      (∀ d, site = .device d → D.device = some d) ∧ D.forecast plan f columns site = .ok given ∧
      run.view = given.view plan.outputs.length (D.freshCount site) ∧
      (∃ request, (D.execute plan table code columns target m).requests = [request] ∧
        given.capacity = D.initializer.roomFor request.request.rows) ∧
      D.Finds plan columns m site run := by
  cases hprepare : D.prepare plan table code target with
  | error e =>
    rw [execute_of_prepare_error hprepare] at hrun
    exact absurd hrun List.not_mem_nil
  | ok fc =>
    obtain ⟨f, context⟩ := fc
    obtain ⟨hcode, -, htarget, hdevice⟩ := prepare_ok hprepare
    rcases execute_follows columns m hprepare with ⟨e, -, hruns, -⟩ | ⟨-, run', hrun', hfinds⟩
    · rw [hruns] at hrun
      exact absurd hrun List.not_mem_nil
    · rw [hrun', List.mem_singleton] at hrun
      subst hrun
      rcases (execute_account columns m hprepare).2.2 with ⟨e, -, hruns, -⟩
        | ⟨given, effect, hsettles⟩
      · exact nomatch hrun'.symm.trans hruns
      · obtain ⟨run', body, hrun, -, hview, -⟩ := hsettles.run
        obtain rfl : run = run' := List.singleton_inj.mp (hrun'.symm.trans hrun)
        exact ⟨f, context.site, given, hcode, htarget, hdevice, hsettles.expected, hview,
          hsettles.request, hfinds⟩

/-- At its entry a kernel reads every input in order as it is stored, the row count that all columns
share, and columns of zeros with the room that was requested for them. On a device it finds them
through its five cells, in live blocks of which no two have a byte in common, and whatever it does
changes no input, no address and no row count that it was given. -/
theorem kernel_entry (D : Dispatcher) (plan : Plan) (table : Table)
    (code : Option CompiledFunction) (columns : ColumnStore) (target : DeviceType) (m : Machine)
    (run : KernelRun) (hrun : run ∈ (D.execute plan table code columns target m).kernelRuns) :
    ∃ rows request,
      (D.execute plan table code columns target m).requests = [request] ∧
      plan.rowCapacity rows = .ok request.request.rows ∧
      let capacity := D.initializer.roomFor request.request.rows
      List.Forall₂ (InputExpr.ReadsAs columns) plan.inputs run.view.inputs ∧
      (∃ input ∈ plan.inputs, input.count? columns = some rows) ∧
      (∀ input ∈ plan.inputs, ∀ n, input.count? columns = some n → n = rows) ∧
      run.view.rows.toInt = rows ∧
      run.view.outputs = List.replicate plan.outputs.length (List.replicate capacity 0) ∧
      (target = .gpu → ∃ d launch storage own, D.device = some d ∧ run.launch = some launch ∧
        launch.Provides (D.entryMemory plan d launch.params storage own rows capacity m.heap.blocks)
          own run.view) := by
  obtain ⟨f, site, given, -, htarget, hdevice, hforecast, hview, hrequest, hfinds⟩ :=
    finds_of_run hrun
  obtain ⟨request, hrequests, hroom⟩ := hrequest
  obtain ⟨hinputs, hcapacity, htold⟩ := forecast_ok hforecast
  obtain ⟨-, hcounts, hcolumn⟩ := Inputs.forecastFrom_all_passes_iff.mp ⟨_, hinputs⟩
  have hrows : run.view.rows.toInt = given.rows := by
    rw [hview]
    exact Word.toInt_ofNat_of_lt htold
  refine ⟨given.rows, request, hrequests, scaled_of_forecastCapacity hcapacity hroom, ?_⟩
  rw [← hroom]
  refine ⟨?_, hcolumn, hcounts, hrows, by rw [hview]; rfl, ?_⟩
  · rw [hview]
    exact Inputs.reads_of_forecastFrom hinputs
  intro hgpu
  cases site with
  | host => exact nomatch htarget.trans hgpu
  | device d =>
    obtain ⟨buffers, bytes, rows, own, hinputs', hstarts, hkeeps, capacity, told, params, storage,
      memory, hcapacity', htold', hlaunch, hshows, hL⟩ := hfinds
    change Inputs.forecastFrom columns plan.name .device _ _ _ _ = _ at hinputs
    rw [hinputs] at hinputs'
    cases hinputs'
    rw [hcapacity] at hcapacity'
    cases hcapacity'
    rw [eq_of_kernelRows htold', stagedMemory_eq hstarts] at hL
    refine ⟨d, _, storage, own, hdevice d rfl, hlaunch, provides_of_holds hL hshows ?_⟩
    rw [hview]
    exact hkeeps

/-- A run of the sample on each device. -/
theorem kernel_entry_counting :
    (∃ run, run ∈ (Sample.dispatcher.execute Sample.plan Sample.table (some Sample.code)
        Sample.columns .gpu {}).kernelRuns ∧
      run.view.rows.toInt = 1 ∧ run.view.outputs = [[0]] ∧
      ∃ launch, run.launch = some launch ∧
        launch.params.view launch.shape launch.memory = .ok run.view) ∧
    ∃ run, run ∈ (Sample.dispatcher.execute Sample.plan Sample.table (some Sample.code)
        Sample.columns .cpu {}).kernelRuns ∧
      run.view.rows.toInt = 1 ∧ run.view.outputs = [[0]] := by
  have hruns (target : DeviceType) : ∃ run, run ∈ (Sample.dispatcher.execute Sample.plan
      Sample.table (some Sample.code) Sample.columns target {}).kernelRuns ∧
        run.view.rows.toInt = 1 := by
    have hviews : (Sample.dispatcher.execute Sample.plan Sample.table (some Sample.code)
        Sample.columns target {}).kernelRuns.map (·.view.rows) = [1] := by
      cases target <;> decide +kernel
    obtain ⟨run, hruns, hview⟩ := List.map_eq_singleton_iff.mp hviews
    exact ⟨run, by rw [hruns]; exact List.mem_singleton_self run, by rw [hview]; rfl⟩
  have hscaled {rows requested : ℕ} (hrows : (1 : ℤ) = rows)
      (h : Sample.plan.rowCapacity rows = .ok requested) : requested = 1 := by
    obtain rfl : rows = 1 := by omega
    have hone : Sample.plan.rowCapacity 1 = .ok 1 := by cbv
    exact Except.ok.inj (h.symm.trans hone)
  constructor
  · obtain ⟨run, hrun, htold⟩ := hruns .gpu
    obtain ⟨rows, request, -, hrequest, -, -, -, hrows, houtputs, hdevice⟩ :=
      kernel_entry Sample.dispatcher Sample.plan Sample.table (some Sample.code) Sample.columns .gpu
        {} run hrun
    obtain ⟨d, launch, storage, own, -, hlaunch, hprovides⟩ := hdevice rfl
    rw [hscaled (htold.symm.trans hrows) hrequest] at houtputs
    exact ⟨run, hrun, htold, houtputs, launch, hlaunch, hprovides.reads⟩
  · obtain ⟨run, hrun, htold⟩ := hruns .cpu
    obtain ⟨rows, request, -, hrequest, -, -, -, hrows, houtputs, -⟩ :=
      kernel_entry Sample.dispatcher Sample.plan Sample.table (some Sample.code) Sample.columns .cpu
        {} run hrun
    rw [hscaled (htold.symm.trans hrows) hrequest] at houtputs
    exact ⟨run, hrun, htold, houtputs⟩

end Dispatcher

end KernelDispatch
