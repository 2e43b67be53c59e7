import KernelDispatch.Dispatcher.DeviceRun
import KernelDispatch.Proofs.Device.Launch
import KernelDispatch.Proofs.Dispatcher.Account

/-!
# The account of a device run

Six blocks are staged in front of those of the inputs. The kernel finds in them what is forecast;
its stores reach the mirror, and the rows that count are copied back into the result. What the
kernel leaves in the error cell is in none of this.
-/

namespace KernelDispatch

/-- The address of a buffer as an array of inputs holds it. -/
def Buffer.pointer (b : Buffer) : Word :=
  match b.location with
  | .device a => a.word
  | .held _ => Address.null.word

theorem Scope.Offers.pointer {s : Scope} {b : Buffer} {bs : Bytes} {d : Device} (h : s.Offers b bs)
    (hsite : s.context.site = .device d) :
    ∃ block ∈ s.machine.heap.blocks, block.base = (Address.mk b.pointer).value ∧
      bs <+: block.bytes := by
  obtain ⟨location, size⟩ := b
  obtain ⟨-, hoffer⟩ := h
  rw [hsite] at hoffer
  cases location with
  | held position => exact hoffer.elim
  | device a => exact hoffer

namespace Dispatcher

variable {D : Dispatcher} {plan : Plan} {kernel : DeviceKernel} {d : Device} {capacity : ℕ}
  {o : OutputBuffers} {L : LaunchMemory} {h : Heap}

theorem copyFrom_countCell (hL : L.Holds h) (hslot : L.slot = d.slot) :
    h.copyFrom d L.params.countCell 8 = .ok L.count.bytes := by
  have hmem : L.countBlock ∈ h.blocks := hL.mem (by simp [LaunchMemory.fresh])
  have hlength : L.countBlock.bytes.length = 8 := L.count.length_bytes
  rw [Heap.copyFrom_base hmem hslot rfl hlength.ge]
  exact congrArg Except.ok (List.take_of_length_le hlength.le)

theorem copyBack_shows {mirror : Mirror} {n count : ℕ} {stores : List Store}
    (ho : o.Zeroed plan capacity) (hL : L.Holds h) (hslot : L.slot = d.slot)
    (hcolumns : L.columns = plan.outputs.length) (hcapacity : L.capacity = capacity)
    (hstores : L.mirror = stores.foldl (storeBytes L.columns L.capacity) (List.replicate n 0))
    (hstorage : mirror.storage = L.storage) (hcount : count ≤ capacity) :
    ∃ result o', o.result.setEntries count = .ok result ∧
      (OutputBuffers.copyBack h d count).run { result, mirror := some mirror } = (.ok (), o') ∧
      o'.result.Shows plan capacity count stores := by
  have hwithin : count ≤ o.result.capacity := ho.capacity.symm ▸ hcount
  have hroom : 8 * (plan.outputs.length * capacity) ≤ L.mirror.length := by
    have hlength := hL.room
    rwa [LaunchMemory.extent, hcolumns, hcapacity] at hlength
  have hzeros : 8 * (plan.outputs.length * capacity) ≤ n := by
    rwa [hstores, length_foldl_storeBytes, List.length_replicate] at hroom
  let result : ResultSet := { o.result with entries := count, entries_le := hwithin }
  have hmem : L.mirrorBlock ∈ h.blocks := hL.mem (by simp [LaunchMemory.fresh])
  have hsize : 8 * (result.columnCount * result.capacity) ≤ L.mirrorBlock.bytes.length := by
    have hsame : 8 * (result.columnCount * result.capacity) =
        8 * (plan.outputs.length * capacity) := ho.storageBytes
    rw [hsame]
    exact hroom
  obtain ⟨o', hrun, -, halike, hdone⟩ := OutputBuffers.copyBack_ok
    (o := { result, mirror := some mirror }) rfl hmem hslot (congrArg Address.value hstorage.symm)
    hsize ho.storageBytes_le hwithin
  refine ⟨result, o', dif_pos hwithin, hrun,
    ho.shows halike.types halike.capacity halike.footprint halike.entries ?_⟩
  intro column hcolumn row hrow k hk
  have hcopied := (hdone column (ho.columnCount.symm ▸ hcolumn) row (hrow.trans_le hwithin)
      k hk).trans
    (if_pos hrow)
  change o'.result.storage.padded[8 * (column * o.result.capacity) + 8 * row + k]? =
    L.mirror[8 * (column * o.result.capacity) + 8 * row + k]? at hcopied
  rw [ho.capacity, hstores, hcolumns, hcapacity] at hcopied
  rw [hcopied]
  exact getElem?_foldl_storeBytes stores hzeros hcolumn (by omega) hk

/-- The result of a device run shows the stores of the mirror, or it is refused as settling says. -/
theorem reconcileDevice_settles {mirror : Mirror} {n : ℕ} {stores : List Store}
    (ho : o.Zeroed plan capacity) (hL : L.Holds h) (hslot : L.slot = d.slot)
    (hcolumns : L.columns = plan.outputs.length) (hcapacity : L.capacity = capacity)
    (hstores : L.mirror = stores.foldl (storeBytes L.columns L.capacity) (List.replicate n 0))
    (hstorage : mirror.storage = L.storage) :
    (∃ rows r, (D.reportedRows plan capacity L.count >>= withinCapacity capacity) = .ok rows ∧
        D.reconcileDevice plan d { o with mirror := some mirror } L.params.countCell h = .ok r ∧
        r.Shows plan capacity rows stores) ∨
      ∃ e, (D.reportedRows plan capacity L.count >>= withinCapacity capacity) = .error e ∧
        D.reconcileDevice plan d { o with mirror := some mirror } L.params.countCell h =
          .error e := by
  have hcell := copyFrom_countCell hL hslot
  have hword : D.reportedRows plan o.result.capacity (Word.ofBytes L.count.bytes) =
      D.reportedRows plan capacity L.count := by rw [Word.ofBytes_bytes, ho.capacity]
  cases hreported : D.reportedRows plan capacity L.count with
  | error e =>
    rw [hreported] at hword
    exact Or.inr ⟨e, rfl, bind_eq_error_iff.mpr (Or.inr ⟨_, hcell,
      bind_eq_error_iff.mpr (Or.inl hword)⟩)⟩
  | ok count =>
    rw [hreported] at hword
    by_cases hcount : count ≤ capacity
    · obtain ⟨result, o', hset, hrun, hshows⟩ :=
        copyBack_shows ho hL hslot hcolumns hcapacity hstores hstorage hcount
      refine Or.inl ⟨count, o'.result, if_pos hcount, ?_, hshows⟩
      refine bind_eq_ok_iff.mpr ⟨_, hcell, bind_eq_ok_iff.mpr ⟨_, hword, bind_eq_ok_iff.mpr
        ⟨_, hset, ?_⟩⟩⟩
      simp only [hrun]
      rfl
    · refine Or.inr ⟨.tooManyRows count capacity, if_neg hcount, ?_⟩
      refine bind_eq_error_iff.mpr (Or.inr ⟨_, hcell, bind_eq_error_iff.mpr (Or.inr ⟨_, hword,
        bind_eq_error_iff.mpr (Or.inl ?_)⟩)⟩)
      rw [ResultSet.setEntries, dif_neg (ho.capacity.symm ▸ hcount), ho.capacity]

theorem launch_forecast (D : Dispatcher) (plan : Plan) {params : KernelParams} {shape : KernelShape}
    {h' : Heap} {view : KernelView}
    (hview : params.view shape h = .ok view)
    (happly : params.apply shape h (kernel.body view) = .ok h') :
    (D.forecastLaunch plan kernel = .ok () ∧
        kernel.launch D.config.deviceId D.config.launch params shape h = .ok (view, h')) ∨
      ∃ e, D.forecastLaunch plan kernel = .error (.launchFailed plan.name kernel.name e) ∧
        kernel.launch D.config.deviceId D.config.launch params shape h = .error e := by
  unfold DeviceKernel.launch forecastLaunch
  by_cases hrefuses : kernel.refusesLaunch = true
  · rw [if_pos hrefuses, if_pos hrefuses]
    exact Or.inr ⟨_, rfl, rfl⟩
  · rw [if_neg hrefuses, if_neg hrefuses]
    by_cases hthreads : D.config.launch.threads = 0
    · rw [if_pos hthreads]
      refine Or.inr ⟨_, rfl, ?_⟩
      simp only [hthreads]
      rfl
    · rw [if_neg hthreads]
      refine Or.inl ⟨rfl, ?_⟩
      simp only [hthreads]
      exact bind_eq_ok_iff.mpr ⟨_, hview, bind_eq_ok_iff.mpr ⟨_, happly, rfl⟩⟩

theorem meets_launch {i₀ : Invocation} {params : KernelParams} {shape : KernelShape} {h' : Heap}
    {view : KernelView} (hview : params.view shape i₀.scope.machine.heap = .ok view)
    (happly : params.apply shape i₀.scope.machine.heap (kernel.body view) = .ok h') :
    Action.Meets (· = i₀) (D.launch plan kernel params shape)
      (fun _ i => D.forecastLaunch plan kernel = .ok () ∧ i =
        { i₀ with
          scope := { i₀.scope with machine := { i₀.scope.machine with heap := h' } }
          kernelRuns := i₀.kernelRuns ++
            [{ view, launch := some { params, shape, memory := i₀.scope.machine.heap } }] })
      (fun e i => D.forecastLaunch plan kernel = .error e ∧ i = i₀) := by
  rintro i rfl
  unfold Action.run launch
  rcases D.launch_forecast plan hview happly with
    ⟨hforecast, hlaunch⟩ | ⟨e, hforecast, hlaunch⟩
  · simp only [hlaunch]
    exact ⟨hforecast, trivial⟩
  · simp only [hlaunch]
    exact ⟨hforecast, trivial⟩

section Staging

variable {i₀ : Invocation} {n : ℕ}

/-- The scope with one more block of these bytes on its device. -/
def Stages (d : Device) (bytes : Bytes) (s : Scope) (a : Address) (s' : Scope) : Prop :=
  s.Gains (.device a bytes.length) [⟨d.slot, a.value, bytes⟩] s'

theorem stages_of_allocDeviceWith {s s' : Scope} {a : Address} {src : Bytes}
    (hsite : s.context.site = .device d) (hlen : src.length ≤ n)
    (halloc : (Scope.allocDeviceWith n src).run s = (.ok a, s')) :
    Stages d (zeroFilled n src) s a s' := by
  rw [Stages, length_zeroFilled hlen]
  exact Scope.allocDeviceWith_ok hsite halloc

theorem Stages.site {s s' : Scope} {a : Address} {bytes : Bytes} (h : Stages d bytes s a s')
    (hsite : s.context.site = .device d) : s'.context.site = .device d := by
  rw [h.context, Context.site_hold, hsite]

theorem meets_allocDeviceWith {s₀ : Scope} {src : Bytes} (hsite : s₀.context.site = .device d)
    (hlen : src.length ≤ n) :
    Action.Meets (· = s₀) (Scope.allocDeviceWith n src)
      (fun a s => Stages d (zeroFilled n src) s₀ a s) (fun e s => e.isRefusal = true ∧ s = s₀) := by
  apply (Scope.atomic_allocDeviceWith n src).meets
  · rintro s a s' rfl halloc
    exact stages_of_allocDeviceWith hsite hlen halloc
  · rintro s e rfl halloc
    exact ⟨Scope.allocDeviceWith_error hsite hlen halloc, rfl⟩

theorem meets_stageWith {src : Bytes} (hsite : i₀.scope.context.site = .device d)
    (hlen : src.length ≤ n) :
    Action.Meets (· = i₀) (Invocation.onScope (Scope.allocDeviceWith n src))
      (fun a i => ∃ s, Stages d (zeroFilled n src) i₀.scope a s ∧ i = { i₀ with scope := s })
      (fun e i => e.isRefusal = true ∧ i = i₀) := by
  refine Action.meets_on fun t ht => ?_
  subst ht
  apply (meets_allocDeviceWith hsite hlen).weaken (fun _ h => h)
  · exact fun a s hstages => ⟨s, hstages, rfl⟩
  · rintro e s ⟨hrefusal, rfl⟩
    exact ⟨hrefusal, rfl⟩

theorem meets_stageZeros (hsite : i₀.scope.context.site = .device d) :
    Action.Meets (· = i₀) (Invocation.onScope (Scope.allocDevice n))
      (fun a i => ∃ s, Stages d (List.replicate n 0) i₀.scope a s ∧ i = { i₀ with scope := s })
      (fun e i => e.isRefusal = true ∧ i = i₀) := by
  refine Action.meets_on fun t ht => ?_
  subst ht
  apply (Scope.atomic_allocDevice n).meets
  · rintro s a s' rfl halloc
    have hgain := Scope.allocDevice_ok hsite halloc
    exact ⟨s', by rwa [Stages, List.length_replicate], rfl⟩
  · rintro s e rfl halloc
    exact ⟨Scope.allocDevice_error hsite halloc, rfl⟩

def mirrorBytes (plan : Plan) (capacity : ℕ) : Bytes :=
  List.replicate (max (8 * (plan.outputs.length * capacity)) slotBytes) 0

/-- The two blocks of a mirror: a copy of the columns, and the array of their addresses. -/
def StagesMirror (plan : Plan) (capacity : ℕ) (d : Device) (s : Scope) (storage columns : Address)
    (s' : Scope) : Prop :=
  ∃ s₁, Stages d (mirrorBytes plan capacity) s storage s₁ ∧
    Stages d (zeroFilled (max (8 * plan.outputs.length) slotBytes)
      (wordArray (columnPointers storage plan.outputs.length capacity))) s₁ columns s'

/-- Fresh output is mirrored as zeros, with the addresses of its columns beside it. -/
theorem setUpMirror_eq {dims : LaunchDims} (ho : o.Zeroed plan capacity) :
    o.setUpMirror dims = do
      let storage ← Scope.allocDeviceWith (max (8 * (plan.outputs.length * capacity)) slotBytes)
        (List.replicate (8 * (plan.outputs.length * capacity)) 0)
      let columns ← Scope.allocDeviceWith (max (8 * plan.outputs.length) slotBytes)
        (wordArray (columnPointers storage plan.outputs.length capacity))
      return (columns, { o with mirror := some { storage, columns, dims } }) := by
  have hcopied : o.result.storage.padded.take (8 * (plan.outputs.length * capacity)) =
      List.replicate (8 * (plan.outputs.length * capacity)) 0 := by
    rw [ho.padded, List.take_replicate, Nat.min_self]
  have harray (storage : Address) : o.columnArray storage =
      wordArray (columnPointers storage plan.outputs.length capacity) := by
    rw [o.columnArray_eq, ho.columnCount, ho.capacity]
  have hview : o.result.checkView (8 * (plan.outputs.length * capacity)) = .ok () :=
    ResultSet.checkView_of_le ho.size.ge
  rw [OutputBuffers.setUpMirror, ho.mirror]
  simp only [ho.storageBytes, hcopied, harray, length_columnPointers, hview]
  rfl

theorem meets_stageMirror {dims : LaunchDims} (hsite : i₀.scope.context.site = .device d)
    (ho : o.Zeroed plan capacity) :
    Action.Meets (· = i₀) (Invocation.onScope (o.setUpMirror dims))
      (fun co i => ∃ t : Address × Scope, (StagesMirror plan capacity d i₀.scope t.1 co.1 t.2 ∧
        co.2 = { o with mirror := some { storage := t.1, columns := co.1, dims } }) ∧
        i = { i₀ with scope := t.2 })
      (fun e i => e.isRefusal = true ∧ ∃ s, i₀.scope.Grows s ∧ i = { i₀ with scope := s }) := by
  have hcopied : (List.replicate (8 * (plan.outputs.length * capacity)) (0 : UInt8)).length ≤
      max (8 * (plan.outputs.length * capacity)) slotBytes := by
    rw [List.length_replicate]
    exact le_max_left _ _
  refine Action.meets_on fun t ht => ?_
  subst ht
  rw [setUpMirror_eq ho]
  apply (meets_allocDeviceWith hsite hcopied).bind
  · rintro e s ⟨hrefusal, rfl⟩
    exact ⟨hrefusal, _, .refl _, rfl⟩
  rintro storage s₁ hmirror
  rw [zeroFilled_zeros (le_max_left _ _)] at hmirror
  have harray := (length_columnPointers storage plan.outputs.length capacity).le
  refine (meets_allocDeviceWith (hmirror.site hsite) (harray.trans (le_max_left _ _))).bind ?_
    (fun columns => Action.meets_pure ?_) s₁ rfl
  · rintro e s ⟨hrefusal, rfl⟩
    exact ⟨hrefusal, s, hmirror.grows, rfl⟩
  · rintro s hcolumns
    exact ⟨(storage, s), ⟨⟨s₁, hmirror, hcolumns⟩, rfl⟩, rfl⟩

end Staging

section Run

variable {inputs : List Buffer} {bytes : List Bytes} {rows : ℕ} {code : CompiledFunction}
  {told : Word} {inputArray rowCount errorCell countCell storage columns : Address}
  {s s₃ s₄ s₅ : Scope} {i₀ : Invocation} {m : Machine}

theorem inputArrayBytes_eq (inputs : List Buffer) :
    inputArrayBytes inputs = wordArray (inputs.map Buffer.pointer) := by
  rw [wordArray, List.flatMap_map, inputArrayBytes]
  refine congrArg inputs.flatMap (funext fun b => ?_)
  unfold Buffer.pointer
  cases b.location <;> rfl

/-- The three blocks that are staged before the output is allocated. -/
def StagesCells (inputs : List Buffer) (told : Word) (d : Device) (s : Scope)
    (inputArray rowCount errorCell : Address) (s' : Scope) : Prop :=
  ∃ s₁ s₂, Stages d (zeroFilled (max (inputArrayBytes inputs).length slotBytes)
      (inputArrayBytes inputs)) s inputArray s₁ ∧
    Stages d (zeroFilled slotBytes told.bytes) s₁ rowCount s₂ ∧
    Stages d (List.replicate slotBytes 0) s₂ errorCell s'

theorem StagesCells.grows (h : StagesCells inputs told d s inputArray rowCount errorCell s₃) :
    s.Grows s₃ := by
  obtain ⟨s₁, s₂, hinputs, hrows, herror⟩ := h
  exact hinputs.grows.trans (hrows.grows.trans herror.grows)

theorem StagesMirror.grows (h : StagesMirror plan capacity d s storage columns s₅) :
    s.Grows s₅ := by
  obtain ⟨s₁, hmirror, hcolumns⟩ := h
  exact hmirror.grows.trans hcolumns.grows

/-- The memory of a launch in which everything has been staged. -/
def stagedMemory (D : Dispatcher) (plan : Plan) (capacity : ℕ) (d : Device) (inputs : List Buffer)
    (told : Word) (params : KernelParams) (storage : Address) (older : List Block) :
    LaunchMemory where
  slot := d.slot
  params := params
  storage := storage
  pointers := inputs.map Buffer.pointer
  told := told
  columns := plan.outputs.length
  capacity := capacity
  mirror := mirrorBytes plan capacity
  count := D.config.sentinel
  error := List.replicate slotBytes 0
  older := older

theorem stagedMemory_holds
    (hcells : StagesCells inputs told d s inputArray rowCount errorCell s₃)
    (hheap : i₀.scope.machine.heap = s₃.machine.heap)
    (hcount : Stages d (zeroFilled slotBytes (Word.bytes D.config.sentinel)) i₀.scope countCell s₄)
    (hmirror : StagesMirror plan capacity d s₄ storage columns s₅) :
    (D.stagedMemory plan capacity d inputs told
      { errorCell, inputs := inputArray, rowCount, outputs := columns, countCell } storage
      s.machine.heap.blocks).Holds s₅.machine.heap where
  blocks := by
    obtain ⟨s₁, s₂, hinputs, hrows, herror⟩ := hcells
    obtain ⟨s', hcopy, hcolumns⟩ := hmirror
    rw [hcolumns.blocks, hcopy.blocks, hcount.blocks, hheap, herror.blocks, hrows.blocks,
      hinputs.blocks, inputArrayBytes_eq, length_wordArray,
      zeroFilled_word, zeroFilled_word]
    rfl
  room := by
    rw [LaunchMemory.extent, stagedMemory, mirrorBytes, List.length_replicate]
    exact le_max_left _ _
  error := List.length_replicate

theorem stagedMemory_view {params : KernelParams} {older : List Block} {f : Forecast}
    (hL : (D.stagedMemory plan f.capacity d inputs told params storage older).Holds h)
    (hsite : s.context.site = .device d) (hoffers : List.Forall₂ s.Offers inputs f.inputs)
    (hblocks : ∀ b ∈ s.machine.heap.blocks, b ∈ h.blocks) (htold : told = BitVec.ofNat 64 f.rows) :
    params.view ⟨inputs.map (·.size), plan.outputs.length, f.capacity⟩ h =
      .ok (f.view plan.outputs.length D.config.sentinel) := by
  have hsizes : inputs.map (·.size) = f.inputs.map List.length := by
    rw [← List.forall₂_eq_eq_eq, List.forall₂_map_left_iff, List.forall₂_map_right_iff]
    exact hoffers.imp fun _ _ hoffer => hoffer.1
  have hpointers : List.Forall₂ (fun w bs => ∃ b ∈ h.blocks, b.base = (Address.mk w).value ∧
      bs <+: b.bytes) (inputs.map Buffer.pointer) f.inputs := by
    rw [List.forall₂_map_left_iff]
    refine hoffers.imp fun b bs hoffer => ?_
    obtain ⟨block, hmem, hshows⟩ := hoffer.pointer hsite
    exact ⟨block, hblocks block hmem, hshows⟩
  have hview := hL.view hpointers
  have hzeros : ((List.range plan.outputs.length).map fun column =>
        wordsOf (slice (mirrorBytes plan f.capacity) (8 * (column * f.capacity))
          (8 * f.capacity))) =
      List.replicate plan.outputs.length (List.replicate f.capacity 0) :=
    columns_of_zeros _ _ _ (le_max_left _ _)
  rw [hsizes]
  refine hview.trans (congrArg Except.ok ?_)
  rw [Forecast.view, ← hzeros, ← htold]
  rfl

/-- A device run is settled by what the kernel has left in its mirror and its row count cell. -/
theorem meets_settleDevice {expected : Except Failure Forecast} {f : Forecast} {n : ℕ}
    {effect : KernelEffect} {mirror : Mirror}
    (hran : D.Ran plan code (.device d) expected f effect i₀)
    (hledger : Ledger m (0 + o.footprint) i₀.scope) (ho : o.Zeroed plan f.capacity)
    (hL : L.Holds i₀.scope.machine.heap) (hslot : L.slot = d.slot) (hcolumns : L.columns =
      plan.outputs.length) (hcapacity : L.capacity = f.capacity)
    (hstores : L.mirror =
      effect.stores.foldl (storeBytes L.columns L.capacity) (List.replicate n 0))
    (hcount : L.count = effect.count.getD D.config.sentinel)
    (hstorage : mirror.storage = L.storage) :
    Action.Meets (· = i₀)
      (Action.check (fun _ => D.synchronize d) >>= fun _ => Action.check fun i =>
        D.reconcileDevice plan d { o with mirror := some mirror } L.params.countCell
          i.scope.machine.heap)
      (D.Answers plan code (.device d) expected m)
      (D.Fails plan code (.device d) expected m (0 + o.footprint)) := by
  have hsettles :=
    reconcileDevice_settles (D := D) ho hL hslot hcolumns hcapacity hstores hstorage
  rw [hcount] at hsettles
  refine Action.meets_check_bind (fun e hsync => ?_) fun _ hsync => ?_
  · exact ⟨hledger, Or.inr ⟨f, effect, hran, bind_eq_error_iff.mpr (Or.inl hsync)⟩⟩
  apply Action.meets_check
  · rintro i r rfl hr
    rcases hsettles with ⟨count, r', hsettle, hr', hshows⟩ | ⟨e, -, he⟩
    · rw [hr'] at hr
      cases hr
      refine ⟨?_, f, effect, count, hran, bind_eq_ok_iff.mpr ⟨_, hsync, hsettle⟩, hshows⟩
      rwa [ho.footprint, ← hshows.footprint, Nat.zero_add] at hledger
    · rw [he] at hr
      cases hr
  · rintro i e rfl he
    rcases hsettles with ⟨count, r', -, hr', -⟩ | ⟨e', hsettle, he'⟩
    · rw [hr'] at he
      cases he
    · rw [he'] at he
      cases he
      exact ⟨hledger, Or.inr ⟨f, effect, hran,
        bind_eq_error_iff.mpr (Or.inr ⟨_, hsync, hsettle⟩)⟩⟩

theorem ledger_of_launch {L' : LaunchMemory} {owed : ℕ} (hledger : Ledger m owed s)
    (hstaged : Ledger m (0 + o.footprint) s₅) (hL : L.Holds s₅.machine.heap) (hL' : L'.Holds h)
    (holder : L.older = s.machine.heap.blocks) (holder' : L'.older = s.machine.heap.blocks)
    (hkeys : L'.fresh.map Block.key = L.fresh.map Block.key) :
    Ledger m (0 + o.footprint) { s₅ with machine := { s₅.machine with heap := h } } := by
  obtain ⟨fresh, hblocks, -⟩ := hledger.heap
  have hbefore : s₅.machine.heap.blocks = (L.fresh ++ fresh) ++ m.heap.blocks := by
    rw [hL.blocks, holder, hblocks, List.append_assoc]
  have hafter : h.blocks = (L'.fresh ++ fresh) ++ m.heap.blocks := by
    rw [hL'.blocks, holder', hblocks, List.append_assoc]
  have hsame : (L'.fresh ++ fresh).map Block.key = (L.fresh ++ fresh).map Block.key := by
    rw [List.map_append, List.map_append, hkeys]
  exact hstaged.rewrite_contents rfl rfl hbefore hafter hsame

/-- The kernel is launched on what has been staged, and its run is settled. -/
theorem meets_launchStaged {params : KernelParams} {f : Forecast} {mirror : Mirror} {owed : ℕ}
    {expected : Except Failure Forecast}
    (hL : (D.stagedMemory plan f.capacity d inputs told params storage
      s.machine.heap.blocks).Holds i₀.scope.machine.heap)
    (hview : params.view ⟨inputs.map (·.size), plan.outputs.length, f.capacity⟩
      i₀.scope.machine.heap = .ok (f.view plan.outputs.length D.config.sentinel))
    (hexpected : expected = D.forecastLaunch plan kernel >>= fun _ => .ok f)
    (hkernel : code.deviceKernel = .ok kernel)
    (hrequest : ∃ request, i₀.requests = [request] ∧
      f.capacity = D.initializer.roomFor request.request.rows)
    (hruns : i₀.kernelRuns = []) (hledger : Ledger m owed s)
    (hstaged : Ledger m (0 + o.footprint) i₀.scope) (ho : o.Zeroed plan f.capacity)
    (hstorage : mirror.storage = storage) :
    Action.Meets (· = i₀)
      (D.launch plan kernel params ⟨inputs.map (·.size), plan.outputs.length, f.capacity⟩ >>=
        fun _ => Action.check (fun _ => D.synchronize d) >>= fun _ => Action.check fun i =>
          D.reconcileDevice plan d { o with mirror := some mirror } params.countCell
            i.scope.machine.heap)
      (D.Answers plan code (.device d) expected m)
      (D.Fails plan code (.device d) expected m (0 + o.footprint)) := by
  let view := f.view plan.outputs.length D.config.sentinel
  obtain ⟨heap, error, happly, hafter⟩ := hL.apply (inputs.map (·.size)) (kernel.body view)
  refine (meets_launch hview happly).bind ?_ fun _ => Action.meets_at fun hlaunch => ?_
  · rintro e i ⟨hlaunch, rfl⟩
    rw [hlaunch] at hexpected
    exact ⟨hstaged, Or.inl ⟨hruns, Or.inr hexpected⟩⟩
  rw [hlaunch] at hexpected
  rw [hruns]
  let launch : LaunchState :=
    ⟨params, ⟨inputs.map (·.size), plan.outputs.length, f.capacity⟩, i₀.scope.machine.heap⟩
  let i₁ : Invocation :=
    { i₀ with
      scope := { i₀.scope with machine := { i₀.scope.machine with heap } }
      kernelRuns := [{ view, launch := some launch }] }
  have hbody : code.bodyFor .gpu = some kernel.body := by
    rw [CompiledFunction.bodyFor, CompiledFunction.deviceKernel_eq_ok_iff.mp hkernel]
    rfl
  have hran : D.Ran plan code (.device d) expected f (kernel.body view) i₁ :=
    ⟨hexpected, hrequest, _, kernel.body, rfl, hbody, rfl, rfl⟩
  have hledger' := ledger_of_launch hledger hstaged hL hafter rfl rfl (by
    rw [LaunchMemory.map_key_fresh, LaunchMemory.map_key_fresh])
  have hsettle := meets_settleDevice hran hledger' ho hafter rfl rfl rfl rfl rfl hstorage
  exact hsettle

theorem meets_runStaged (hsite : s.context.site = .device d)
    (hoffers : List.Forall₂ s.Offers inputs bytes) (hledger : Ledger m 0 s)
    (hkernel : code.deviceKernel = .ok kernel) (htold : kernelRows rows = .ok told)
    (hcells : StagesCells inputs told d s inputArray rowCount errorCell s₃)
    (ho : D.Allocated plan s₃ rows capacity o i₀) :
    Action.Meets (· = i₀) (D.runStaged plan inputs kernel d o inputArray rowCount errorCell)
      (D.Answers plan code (.device d) (D.forecastRun plan code bytes rows (.device d)) m)
      (D.Fails plan code (.device d) (D.forecastRun plan code bytes rows (.device d)) m
        (0 + o.footprint)) := by
  have hsite₃ : s₃.context.site = .device d := hcells.grows.site.trans hsite
  have hsite₀ : i₀.scope.context.site = .device d := by rw [ho.context]; exact hsite₃
  have hcapacity : D.forecastCapacity plan (.device d) rows = .ok capacity := hsite₃ ▸ ho.forecast
  have hledger₀ : Ledger m (0 + o.footprint) i₀.scope := ho.ledger (hcells.grows.ledger hledger)
  refine (meets_stageWith hsite₀ (Word.length_bytes _).le).bind ?_ fun countCell =>
    Action.meets_some fun s₄ hcount => ?_
  · rintro e i ⟨hrefusal, rfl⟩
    exact ⟨hledger₀, Or.inl ⟨ho.runs, Or.inl hrefusal⟩⟩
  have hledger₄ := hcount.grows.ledger hledger₀
  refine (meets_stageMirror (hcount.site hsite₀) ho.zeroed).bind ?_ ?_
  · rintro e i ⟨hrefusal, s₅, hgrows, rfl⟩
    exact ⟨hgrows.ledger hledger₄, Or.inl ⟨ho.runs, Or.inl hrefusal⟩⟩
  rintro ⟨columns, o'⟩
  refine Action.meets_some fun t ht => ?_
  obtain ⟨storage, s₅⟩ := t
  obtain ⟨hmirror, ho'⟩ := ht
  simp only at hmirror ho' ⊢
  subst ho'
  have hledger₅ := hmirror.grows.ledger hledger₄
  let f : Forecast := { inputs := bytes, rows, capacity }
  have hL := stagedMemory_holds hcells ho.heap hcount hmirror
  have hblocks : ∀ b ∈ s.machine.heap.blocks, b ∈ s₅.machine.heap.blocks := by
    intro b hb
    rw [hL.blocks]
    exact List.mem_append_right _ hb
  have hview := stagedMemory_view (f := f) hL hsite hoffers hblocks (eq_of_kernelRows htold)
  have hexpected : D.forecastRun plan code bytes rows (.device d) =
      D.forecastLaunch plan kernel >>= fun _ => .ok f := by
    rw [forecastRun, hkernel]
    change (kernelRows rows >>= _) = _
    rw [htold]
    change (D.forecastCapacity plan (.device d) rows >>= _) = _
    rw [hcapacity]
    rfl
  simp only [ho.zeroed.columnCount, ho.zeroed.capacity]
  let mirror : Mirror := { storage, columns, dims := D.config.launch }
  let i₅ : Invocation := { i₀ with scope := s₅ }
  have hstorage : mirror.storage = storage := rfl
  have hL' : (D.stagedMemory plan f.capacity d inputs told
      { errorCell, inputs := inputArray, rowCount, outputs := columns, countCell } storage
      s.machine.heap.blocks).Holds i₅.scope.machine.heap := hL
  have hsettle := meets_launchStaged hL' hview hexpected hkernel ho.request ho.runs hledger hledger₅
    ho.zeroed hstorage
  exact hsettle

theorem meets_runOnDevice (hsite : s.context.site = .device d)
    (hoffers : List.Forall₂ s.Offers inputs bytes) (hledger : Ledger m 0 s) :
    Action.Meets (· = { scope := s }) (D.runOnDevice plan inputs rows code)
      (D.Answers plan code (.device d) (D.forecastRun plan code bytes rows (.device d)) m)
      (D.Fails plan code (.device d) (D.forecastRun plan code bytes rows (.device d)) m 0) := by
  have hdevice : s.context.device = .ok d := Scope.device_of_site hsite
  refine Action.meets_check_bind (fun e hkernel => ?_) fun kernel hkernel => ?_
  · exact ⟨hledger, Or.inl ⟨rfl, Or.inr (bind_eq_error_iff.mpr (Or.inl hkernel))⟩⟩
  refine Action.meets_passed hdevice ?_
  refine (meets_stageWith hsite (le_max_left _ _)).bind ?_ fun inputArray =>
    Action.meets_some fun s₁ hinputs => ?_
  · rintro e i ⟨hrefusal, rfl⟩
    exact ⟨hledger, Or.inl ⟨rfl, Or.inl hrefusal⟩⟩
  have hledger₁ := hinputs.grows.ledger hledger
  refine Action.meets_check_bind (fun e htold => ?_) fun told htold => ?_
  · exact ⟨hledger₁, Or.inl ⟨rfl, Or.inr (bind_eq_error_iff.mpr (Or.inr ⟨_, hkernel,
      bind_eq_error_iff.mpr (Or.inl htold)⟩))⟩⟩
  have hsite₁ := hinputs.site hsite
  refine (meets_stageWith hsite₁ (Word.length_bytes _).le).bind ?_ fun rowCount =>
    Action.meets_some fun s₂ hrows => ?_
  · rintro e i ⟨hrefusal, rfl⟩
    exact ⟨hledger₁, Or.inl ⟨rfl, Or.inl hrefusal⟩⟩
  have hledger₂ := hrows.grows.ledger hledger₁
  have hsite₂ := hrows.site hsite₁
  refine (meets_stageZeros hsite₂).bind ?_ fun errorCell => Action.meets_some fun s₃ herror => ?_
  · rintro e i ⟨hrefusal, rfl⟩
    exact ⟨hledger₂, Or.inl ⟨rfl, Or.inl hrefusal⟩⟩
  have hledger₃ := herror.grows.ledger hledger₂
  have hsite₃ := herror.site hsite₂
  have hcells : StagesCells inputs told d s inputArray rowCount errorCell s₃ :=
    ⟨s₁, s₂, hinputs, hrows, herror⟩
  have htype : s₃.context.site.deviceType = .gpu := by rw [hsite₃]; rfl
  refine (D.meets_allocateOutput plan s₃ inputs rows .gpu htype).bind ?_ ?_
  · rintro e i ⟨hscope, hruns, hcause⟩
    refine ⟨hscope.symm ▸ hledger₃, Or.inl ⟨hruns, hcause.imp_right fun hcapacity => ?_⟩⟩
    rw [hsite₃] at hcapacity
    exact bind_eq_error_iff.mpr (Or.inr ⟨_, hkernel, bind_eq_error_iff.mpr (Or.inr ⟨_, htold,
      bind_eq_error_iff.mpr (Or.inl hcapacity)⟩)⟩)
  · intro o
    apply Action.meets_onFailure
    rintro i ⟨capacity, ho⟩
    exact (meets_runStaged hsite hoffers hledger hkernel htold hcells ho).weaken (fun _ h => h)
      (fun _ _ h => h) (fun _ _ h => h.releaseOutput) i rfl

end Run

end Dispatcher

end KernelDispatch
