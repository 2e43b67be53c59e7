import KernelDispatch.Proofs.Inputs.Holdings

/-!
# Columns as they are fetched

A column is packed into zeroed words, and what was packed is the values, one after the other. A
fetch for the host serves these bytes as they are stored. A fetch for a device serves a copy of them
in a fresh allocation, which is freed with its handle. A fetch that fails has one of four causes and
changes nothing.
-/

namespace KernelDispatch

/-- The types of which a column can hold values: signed integers and floats. -/
inductive ValueType
  | int (w : Width)
  | float32
  | float64

namespace ValueType

def width : ValueType → Width
  | int w => w
  | float32 => .w32
  | float64 => .w64

def scalar : (k : ValueType) → BitVec k.width.bits → Scalar
  | int w, v => .int w v
  | float32, v => .float32 v
  | float64, v => .float64 v

theorem literalBytes?_scalar (k : ValueType) (v : BitVec k.width.bits) :
    (k.scalar v).literalBytes? = some (bytesOf k.width.bytes v) := by
  cases k <;> rfl

end ValueType

section Packing

variable {w : Width}

/-- What is stored in the chunks of a region, and what is left of it behind them. -/
theorem packInto_eq (values : List (BitVec w.bits)) {chunks : ℕ} (region : Bytes)
    (h : values.length ≤ chunks) :
    packInto w chunks values region =
      values.flatMap (bytesOf w.bytes) ++ region.drop (w.bytes * values.length) := by
  induction values generalizing chunks region with
  | nil => cases chunks <;> simp [packInto]
  | cons v values ih =>
    obtain ⟨chunks, rfl⟩ := Nat.exists_eq_succ_of_ne_zero (Nat.ne_of_gt (Nat.zero_lt_of_lt h))
    rw [packInto, ih (region.drop w.bytes) (Nat.le_of_succ_le_succ h), List.flatMap_cons,
      List.append_assoc, List.drop_drop, List.length_cons, Nat.mul_succ, Nat.add_comm w.bytes]

theorem length_packed (values : List (BitVec w.bits)) :
    (values.flatMap (bytesOf w.bytes)).length = w.bytes * values.length := by
  induction values with
  | nil => rfl
  | cons v values ih =>
    rw [List.flatMap_cons, List.length_append, ih, length_bytesOf, List.length_cons, Nat.mul_succ,
      Nat.add_comm]

theorem chunks_suffice (w : Width) (n : ℕ) : n ≤ 8 * max 1 (slotsFor (w.bytes * n)) / w.bytes := by
  have hwidth : 0 < w.bytes := by cases w <;> decide
  have hslots := le_slotsFor_mul (w.bytes * n)
  rw [Nat.le_div_iff_mul_le hwidth, Nat.mul_comm n]
  omega

theorem StoredColumn.bytes_ofValues (values : List (BitVec w.bits)) :
    (ofValues w values).bytes = values.flatMap (bytesOf w.bytes) := by
  have hchunks := chunks_suffice w values.length
  rw [ofValues]
  simp only [List.length_replicate]
  rw [packInto_eq values _ hchunks, ← length_packed values, List.take_left]

theorem unpack_packed (values : List (BitVec w.bits)) :
    unpack w values.length (values.flatMap (bytesOf w.bytes)) = values := by
  induction values with
  | nil => rfl
  | cons v values ih =>
    have hlength := length_bytesOf w.bytes v
    have hfirst : bitsAt w.bits (bytesOf w.bytes v) = v := bitsAt_bytesOf w.bytes v
    rw [List.length_cons, unpack, List.flatMap_cons, List.take_left' hlength,
      List.drop_left' hlength, ih, hfirst]

end Packing

/-- A column of these values: the cells of the values one after the other, from which the values are
read back bit for bit. -/
structure StoredColumn.Packs (column : StoredColumn) (k : ValueType)
    (values : List (BitVec k.width.bits)) : Prop where
  cells : ∃ cells, values.mapM (fun v => (k.scalar v).literalBytes?) = some cells ∧
    column.bytes = cells.flatten
  length : column.bytes.length = k.width.bytes * values.length
  unpacked : unpack k.width values.length column.bytes = values
  count : column.count = values.length

theorem StoredColumn.packs_ofValues (k : ValueType) (values : List (BitVec k.width.bits)) :
    (ofValues k.width values).Packs k values where
  cells := by
    refine ⟨values.map (bytesOf k.width.bytes), ?_, ?_⟩
    · simp only [k.literalBytes?_scalar]
      exact List.mapM_pure
    · rw [bytes_ofValues, List.flatMap_def]
  length := by rw [bytes_ofValues, length_packed]
  unpacked := by rw [bytes_ofValues, unpack_packed]
  count := rfl

theorem Machine.allocDevice_eq_error_iff {m : Machine} {d : Device} {n : ℕ} {e : Failure} :
    m.allocDevice d n = .error e ↔ e = .outOfDeviceMemory d.id n ∧
      (m.heap.admits d = true → addressSpace < m.heap.top + spanOf n) := by
  unfold allocDevice Heap.alloc
  by_cases hadmits : m.heap.admits d = true
  · by_cases hroom : m.heap.top + spanOf n ≤ addressSpace
    · rw [if_pos hadmits, dif_pos hroom]
      exact ⟨nofun, fun h => absurd (h.2 hadmits) hroom.not_gt⟩
    · rw [if_pos hadmits, dif_neg hroom]
      exact ⟨fun h => ⟨(Except.error.inj h).symm, fun _ => not_le.mp hroom⟩, fun h => h.1 ▸ rfl⟩
  · rw [if_neg hadmits]
    exact ⟨fun h => ⟨(Except.error.inj h).symm, fun h => absurd h hadmits⟩, fun h => h.1 ▸ rfl⟩

/-- A copy of a column that a device holds for a handle. -/
structure FetchedColumn.CopiedTo (c : FetchedColumn) (column : StoredColumn) (d : Device)
    (m m' : Machine) : Prop where
  /-- The copy is a block of its own, above all others. -/
  fresh : ∃ a, c.site = .device d a ∧
    m'.heap.blocks = ⟨d.slot, a.value,
    zeroFilled (max column.bytes.length slotBytes) column.bytes⟩ ::
      m.heap.blocks ∧
    ∀ b ∈ m.heap.blocks, b.limit ≤ a.value
  /-- The device reads the bytes of the column. -/
  loads : c.load m' = .ok column.bytes
  count : c.count = column.count
  budget : m'.budget = m.budget
  fetches : m'.fetches = m.fetches + 1
  /-- Dropping the handle frees the copy and no other block. -/
  released : c.release m' = { m with fetches := m.fetches + 1 }

namespace ColumnStore

variable {S : ColumnStore} {ref : ColumnRef} {level : MemoryLevel} {deviceId : DeviceId}
  {m m' : Machine} {c : FetchedColumn} {column : StoredColumn} {d : Device} {e : Failure}

def registerAll (S : ColumnStore) (entries : List (ℕ × StoredColumn)) : ColumnStore :=
  entries.foldl (fun S entry => S.register entry.1 entry.2) S

theorem device_registerAll (S : ColumnStore) (entries : List (ℕ × StoredColumn)) :
    (S.registerAll entries).device = S.device := by
  induction entries generalizing S with
  | nil => rfl
  | cons entry rest ih => exact ih (S.register entry.1 entry.2)

theorem find?_registerAll {entries : List (ℕ × StoredColumn)} {index : ℕ}
    (h : ∀ entry ∈ entries, entry.1 ≠ index) :
    (S.registerAll entries).find? index = S.find? index := by
  induction entries generalizing S with
  | nil => rfl
  | cons entry rest ih =>
    have hother : index ≠ entry.1 := (h entry List.mem_cons_self).symm
    calc ((S.register entry.1 entry.2).registerAll rest).find? index
        = (S.register entry.1 entry.2).find? index :=
          ih fun later hlater => h later (List.mem_cons_of_mem _ hlater)
      _ = S.find? index := S.find?_register_of_ne entry.2 hother

/-- Why a fetch fails. -/
inductive Fails (S : ColumnStore) (ref : ColumnRef) (deviceId : DeviceId) (m : Machine) :
    MemoryLevel → Failure → Prop
  | missing {level : MemoryLevel} (hfind : S.find? ref.index = none) :
      Fails S ref deviceId m level (.missingColumn ref)
  | noDevice {column : StoredColumn} (hfind : S.find? ref.index = some column)
      (hdevice : S.device = none) : Fails S ref deviceId m .device .noFetchDevice
  | otherDevice {column : StoredColumn} {d : Device} (hfind : S.find? ref.index = some column)
      (hdevice : S.device = some d) (hid : d.id ≠ deviceId) :
      Fails S ref deviceId m .device (.fetchDeviceMismatch deviceId d.id)
  /-- The device may have no more allocations, or the addresses are used up. -/
  | refused {column : StoredColumn} {d : Device} (hfind : S.find? ref.index = some column)
      (hdevice : S.device = some d) (hid : d.id = deviceId)
      (hroom : m.heap.admits d = true →
        addressSpace < m.heap.top + spanOf (max column.bytes.length slotBytes)) :
      Fails S ref deviceId m .device (.outOfDeviceMemory d.id (max column.bytes.length slotBytes))

/-- A copy to a device fails exactly if its allocation is refused, and then changes nothing. -/
theorem copyToDevice_eq_error_iff : (copyToDevice column d).run m = (.error e, m') ↔
    m' = m ∧ e = .outOfDeviceMemory d.id (max column.bytes.length slotBytes) ∧
      (m.heap.admits d = true →
        addressSpace < m.heap.top + spanOf (max column.bytes.length slotBytes)) := by
  rw [← Machine.allocDevice_eq_error_iff]
  rcases copyToDevice_cases column d m with ⟨a, m₁, m₂, halloc, -, hrun⟩ | ⟨e', halloc, hrun⟩
  · rw [hrun, halloc]
    constructor
    · rintro ⟨⟩
    · rintro ⟨-, ⟨⟩⟩
  · rw [hrun, halloc]
    constructor
    · rintro ⟨⟩
      exact ⟨rfl, rfl⟩
    · rintro ⟨rfl, ⟨⟩⟩
      rfl

/-- A fetch fails for these causes and no others, and leaves the machine as it was. -/
theorem fetch_eq_error_iff : (S.fetch ref level deviceId).run m = (.error e, m') ↔
    m' = m ∧ S.Fails ref deviceId m level e := by
  constructor
  · intro h
    refine ⟨atomic_fetch _ _ _ _ _ _ _ h, ?_⟩
    unfold fetch at h
    cases hfind : S.find? ref.index with
    | none =>
      rw [hfind] at h
      cases h
      exact .missing hfind
    | some column =>
      rw [hfind] at h
      rcases Action.run_bind_eq_error_iff.mp h with hplace | ⟨c, m₁, -, hcount⟩
      swap
      · cases hcount
      cases level with
      | host => cases hplace
      | device =>
        unfold place at hplace
        cases hdevice : S.device with
        | none =>
          rw [hdevice] at hplace
          cases hplace
          exact .noDevice hfind hdevice
        | some d =>
          simp only [hdevice] at hplace
          by_cases hid : d.id = deviceId
          · rw [if_pos hid] at hplace
            obtain ⟨-, rfl, hroom⟩ := copyToDevice_eq_error_iff.mp hplace
            exact .refused hfind hdevice hid hroom
          · rw [if_neg hid] at hplace
            cases hplace
            exact .otherDevice hfind hdevice hid
  · rintro ⟨rfl, hfails⟩
    cases hfails with
    | missing hfind => rw [fetch, hfind, Action.run_fail]
    | noDevice hfind hdevice =>
      rw [fetch, hfind]
      simp only [place, hdevice]
      rfl
    | otherDevice hfind hdevice hid =>
      rw [fetch, hfind]
      simp only [place, hdevice, if_neg hid]
      rfl
    | refused hfind hdevice hid hroom =>
      rw [fetch, hfind]
      simp only [place, hdevice, if_pos hid]
      exact Action.run_bind_eq_error_iff.mpr
        (Or.inl (copyToDevice_eq_error_iff.mpr ⟨rfl, rfl, hroom⟩))

theorem fetch_host (hfind : S.find? ref.index = some column) (deviceId : DeviceId) (m : Machine) :
    (S.fetch ref .host deviceId).run m =
      (.ok ⟨column, .host⟩, { m with fetches := m.fetches + 1 }) := by
  rw [fetch, hfind]
  rfl

theorem copied_of_fetch (hfind : S.find? ref.index = some column)
    (h : (S.fetch ref .device deviceId).run m = (.ok c, m')) :
    ∃ d, S.device = some d ∧ d.id = deviceId ∧ c.CopiedTo column d m m' := by
  obtain ⟨hlook, hserves⟩ := fetch_ok h
  obtain ⟨hsource, hat⟩ := look_eq_ok_iff.mp hlook
  obtain rfl : column = c.source := Option.some.inj (hfind.symm.trans hsource)
  obtain ⟨d, hdevice, hid⟩ := hat rfl
  have hserved : m'.fetches = m.fetches + 1 ∧ S.ServedAt c (.device d) := fetch_served h
  obtain ⟨hfetches, d', a, hd', hsite⟩ := hserved
  obtain rfl : d = d' := Option.some.inj (hdevice.symm.trans hd')
  have hreleased := release_of_serves hserves hfetches
  obtain ⟨hbudget, d'', a', hsite', hblocks⟩ := hserves
  cases hsite.symm.trans hsite'
  have hlength := length_zeroFilled (le_max_left c.source.bytes.length slotBytes)
  have habove := m'.heap.sorted
  rw [hblocks, List.pairwise_cons] at habove
  have hmem : (⟨d.slot, a.value, zeroFilled (max c.source.bytes.length slotBytes) c.source.bytes⟩ :
      Block) ∈ m'.heap.blocks := by
    rw [hblocks]
    exact List.mem_cons_self
  have hloads : c.load m' = .ok c.source.bytes := by
    have hroom := (le_max_left c.source.bytes.length slotBytes).trans hlength.ge
    have hread := Heap.copyFrom_base hmem rfl rfl hroom
    rw [zeroFilled, List.take_left] at hread
    rw [FetchedColumn.load, hsite]
    exact hread
  exact ⟨d, hdevice, hid, ⟨a, hsite, hblocks, habove.1⟩, hloads, rfl, hbudget, hfetches, hreleased⟩

/-- Columns reach a kernel as they were registered. The column at a position is the last one that
was registered there, and holds its values bit for bit. A fetch for the host serves it as it is, and
a fetch for a device, if it succeeds, serves a copy with the same bytes and rows, which its handle
frees. A fetch of any column that fails changes nothing, and says which of four causes it has. -/
theorem fetches_deliver (S₀ : ColumnStore) (ref : ColumnRef) (k : ValueType)
    (values : List (BitVec k.width.bits)) {later : List (ℕ × StoredColumn)}
    (hlast : ∀ entry ∈ later, entry.1 ≠ ref.index) :
    let column := StoredColumn.ofValues k.width values
    let S := (S₀.register ref.index column).registerAll later
    column.Packs k values ∧
    (∀ deviceId m, ∃ c m', (S.fetch ref .host deviceId).run m = (.ok c, m') ∧
      c.load m' = .ok column.bytes ∧ c.count = values.length ∧
      m' = { m with fetches := m.fetches + 1 } ∧ c.release m' = m') ∧
    (∀ deviceId m c m', (S.fetch ref .device deviceId).run m = (.ok c, m') →
      ∃ d, S₀.device = some d ∧ d.id = deviceId ∧ c.CopiedTo column d m m') ∧
    ∀ other level deviceId m e m', (S.fetch other level deviceId).run m = (.error e, m') →
      m' = m ∧ S.Fails other deviceId m level e := by
  intro column S
  have hfind : S.find? ref.index = some column :=
    (find?_registerAll hlast).trans (S₀.find?_register_self ref.index column)
  have hdevice : S.device = S₀.device := device_registerAll _ later
  refine ⟨StoredColumn.packs_ofValues k values, ?_, ?_, ?_⟩
  · intro deviceId m
    exact ⟨_, _, fetch_host hfind deviceId m, rfl, rfl, rfl, rfl⟩
  · intro deviceId m c m' hfetch
    rw [← hdevice]
    exact copied_of_fetch hfind hfetch
  · intro other level deviceId m e m' hfails
    exact fetch_eq_error_iff.mp hfails

/-- Three values of one byte, registered in place of an empty column. A device with room for one
allocation serves them once, and refuses to serve them again. -/
theorem fetches_deliver_three :
    let d : Device := { slot := 0, id := 0, maxLive := some 1 }
    let ref : ColumnRef := { table := 0, index := 0, datatype := .int .w8 }
    let column := StoredColumn.ofValues .w8 [1, 2, 255]
    let S : ColumnStore :=
      (({ columns := [(0, .ofValues .w16 [])], device := some d } : ColumnStore).register 0
        column).registerAll [(1, .ofValues .w64 [7])]
    ∃ c m, (S.fetch ref .device 0).run {} = (.ok c, m) ∧ c.load m = .ok [1, 2, 255] ∧
      m.heap.live d = 1 ∧ (c.release m).heap.blocks = [] ∧
      (S.fetch ref .device 0).run m = (.error (.outOfDeviceMemory 0 8), m) := by
  intro d ref column S
  obtain ⟨c, m, hfetch⟩ : ∃ c m, (S.fetch ref .device 0).run {} = (.ok c, m) := by
    have hserved : ((S.fetch ref .device 0).run {}).1.toOption.isSome = true := by decide +kernel
    rcases hfetch : (S.fetch ref .device 0).run {} with ⟨e | c, m⟩
    · rw [hfetch] at hserved
      cases hserved
    · exact ⟨c, m, rfl⟩
  have hlast : ∀ entry ∈ [(1, StoredColumn.ofValues .w64 [7])], entry.1 ≠ ref.index := by simp [ref]
  obtain ⟨-, -, hcopied, -⟩ := fetches_deliver
    { columns := [(0, .ofValues .w16 [])], device := some d } ref (.int .w8) [1, 2, 255]
    hlast
  obtain ⟨d', hd', -, hcopy⟩ := hcopied 0 {} c m hfetch
  obtain rfl : d = d' := Option.some.inj hd'
  obtain ⟨a, -, hblocks, -⟩ := hcopy.fresh
  have hlive : m.heap.live d = 1 := by
    rw [Heap.live, Heap.blocksOf, hblocks]
    rfl
  have hfull : ¬m.heap.admits d = true := by
    rw [Heap.admits, hlive]
    decide
  refine ⟨c, m, hfetch, hcopy.loads, hlive, ?_, ?_⟩
  · rw [hcopy.released]
  · have hrefused : S.Fails ref 0 m .device (.outOfDeviceMemory d.id (max column.bytes.length 8)) :=
      .refused rfl rfl rfl fun hadmits => absurd hadmits hfull
    exact fetch_eq_error_iff.mpr ⟨rfl, hrefused⟩

end ColumnStore

end KernelDispatch
