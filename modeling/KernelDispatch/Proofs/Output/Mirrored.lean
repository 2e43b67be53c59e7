import KernelDispatch.Proofs.Device.Launch
import KernelDispatch.Proofs.Output.Views

/-!
# Mirrored output

A mirror that was just set up holds the storage, word for word, in one allocation, and beside it the
address of every column. From then on the mirror and the storage may each change. Copying back makes
the first rows of every column those of the mirror and leaves the rows behind them, as long as the
device has the mirror; it is refused, and changes nothing, where there is no mirror to copy from.
-/

namespace KernelDispatch

theorem Scope.site_of_allocDeviceWith {s s' : Scope} {n : ℕ} {src : Bytes} {a : Address}
    (h : (allocDeviceWith n src).run s = (.ok a, s')) : ∃ d, s.context.site = .device d := by
  cases hsite : s.context.site with
  | device d => exact ⟨d, rfl⟩
  | host =>
    rw [allocDeviceWith_host (length_of_allocDeviceWith h) hsite] at h
    cases h

theorem getElem?_zeroFilled {n i : ℕ} {src : Bytes} (h : i < src.length) :
    (zeroFilled n src)[i]? = src[i]? := List.getElem?_append_left h

theorem map_range_split {α : Type} {n rows : ℕ} {f g k : ℕ → α}
    (hsplit : ∀ row < n, f row = if row < rows then g row else k row) :
    (List.range n).map f = ((List.range n).map g).take rows ++
      ((List.range n).map k).drop rows := by
  have hfirst : ∀ row ∈ (List.range n).take rows, f row = g row := by
    intro row hrow
    rw [List.take_range, List.mem_range, lt_min_iff] at hrow
    rw [hsplit row hrow.2, if_pos hrow.1]
  have hrest : ∀ row ∈ (List.range n).drop rows, f row = k row := by
    intro row hrow
    rw [List.range_eq_range', List.drop_range', List.mem_range'_1] at hrow
    rw [hsplit row (by omega), if_neg (by omega)]
  calc (List.range n).map f
      = ((List.range n).take rows ++ (List.range n).drop rows).map f := by
        rw [List.take_append_drop]
    _ = ((List.range n).take rows).map g ++ ((List.range n).drop rows).map k := by
        rw [List.map_append, List.map_congr_left hfirst, List.map_congr_left hrest]
    _ = _ := by rw [List.map_take, List.map_drop]

namespace Heap

variable {h : Heap} {d : Device} {a : Address} {len extent : ℕ}

/-- Whether a live allocation of the device has an address in common with a range. -/
def Overlaps (h : Heap) (d : Device) (start len : ℕ) : Prop :=
  ∃ b ∈ h.blocksOf d, ∃ x, start ≤ x ∧ x < start + len ∧ b.base ≤ x ∧ x < b.stop

theorem copyFrom_of_not_overlaps (hpos : 0 < len) (hlen : len ≤ extent)
    (hnone : ¬h.Overlaps d a.value extent) :
    h.copyFrom d a len = .error (.accessOutsideAllocations a len) := by
  have hload : h.load? (·.owner == d.slot) a len = none := by
    rw [load?, Option.map_eq_none_iff, List.find?_eq_none]
    intro b hb hboth
    rw [Bool.and_eq_true, Block.holds_iff] at hboth
    obtain ⟨howner, hbase, hstop⟩ := hboth
    refine hnone ⟨b, List.mem_filter.mpr ⟨hb, howner⟩, a.value, le_rfl, by omega, hbase, ?_⟩
    rw [Block.stop]
    omega
  rw [copyFrom, hload]

end Heap

namespace Mirror

variable {mirror : Mirror} {r : ResultSet} {d : Device} {h : Heap} {b : Block} {column : ℕ}

/-- The words of a column of a result in its mirror, as a device reads them. -/
def columnWords (mirror : Mirror) (r : ResultSet) (d : Device) (h : Heap) (column : ℕ) :
    Except Failure (List Word) :=
  wordsOf <$> h.copyFrom d (mirror.storage.advance (r.columnOffset column)) (8 * r.capacity)

/-- A live allocation of the device is the mirror of a result. -/
structure IsBlock (mirror : Mirror) (r : ResultSet) (d : Device) (h : Heap) (b : Block) : Prop where
  mem : b ∈ h.blocks
  owner : b.owner = d.slot
  base : b.base = mirror.storage.value
  length : b.bytes.length = max r.storageBytes slotBytes

namespace IsBlock

theorem room (hb : mirror.IsBlock r d h b) : 8 * (r.columnCount * r.capacity) ≤ b.bytes.length := by
  rw [hb.length]
  exact le_max_left _ _

theorem column_room (hb : mirror.IsBlock r d h b) (hcolumn : column < r.columnCount) :
    r.columnOffset column + 8 * r.capacity ≤ b.bytes.length :=
  (ResultSet.column_in_region le_rfl hcolumn).trans hb.room

theorem value_column (hb : mirror.IsBlock r d h b) (hcolumn : column < r.columnCount) :
    (mirror.storage.advance (r.columnOffset column)).value =
      mirror.storage.value + 8 * (column * r.capacity) := by
  have hroom := hb.column_room hcolumn
  rw [Heap.value_advance_of_mem hb.mem hb.base (by omega), hb.base, ResultSet.columnOffset]

theorem columnWords_eq (hb : mirror.IsBlock r d h b) (hcolumn : column < r.columnCount) :
    mirror.columnWords r d h column = .ok ((List.range r.capacity).map fun row =>
      Word.ofBytes (slice b.bytes (r.columnOffset column + 8 * row) 8)) := by
  have hroom := hb.column_room hcolumn
  rw [columnWords, Heap.copyFrom_advance _ hb.mem hb.owner hb.base hroom]
  exact congrArg Except.ok (wordsOf_slice hroom)

end IsBlock

/-- What a mirror holds right after it was set up. -/
structure Holds (mirror : Mirror) (r : ResultSet) (d : Device) (h : Heap) : Prop where
  /-- The array beside the mirror has the addresses of the columns in order. -/
  entries : ∀ column < r.columnCount, KernelParams.entry h mirror.columns column =
    .ok (mirror.storage.advance (r.columnOffset column))
  /-- A column starts at its place in the mirror. -/
  values : ∀ column < r.columnCount, (mirror.storage.advance (r.columnOffset column)).value =
    mirror.storage.value + 8 * (column * r.capacity)
  /-- One allocation holds all columns. -/
  inside : ∃ b, mirror.IsBlock r d h b ∧ ∀ column < r.columnCount,
    b.holds (mirror.storage.advance (r.columnOffset column)).value (8 * r.capacity) = true
  words : ∀ column < r.columnCount,
    mirror.columnWords r d h column = .ok (r.columnWords column)

end Mirror

namespace OutputBuffers

variable {o o' : OutputBuffers} {mirror : Mirror} {d : Device} {h : Heap} {b : Block} {rows : ℕ}

theorem length_copied (o : OutputBuffers) :
    (o.result.storage.padded.take o.result.storageBytes).length = o.result.storageBytes := by
  rw [List.length_take]
  exact Nat.min_eq_left o.result.columns_fit

/-- A block that starts with the columns, and one with the array of their addresses, are a
mirror. -/
theorem mirror_holds (hb : mirror.IsBlock o.result d h b) {n : ℕ}
    (hcopied : b.bytes = zeroFilled n (o.result.storage.padded.take o.result.storageBytes)) {m : ℕ}
    (harray :
      ⟨d.slot, mirror.columns.value, zeroFilled m (o.columnArray mirror.storage)⟩ ∈ h.blocks) :
    mirror.Holds o.result d h where
  entries := by
    intro column hcolumn
    have hindex : column <
        (columnPointers mirror.storage o.result.columnCount o.result.capacity).length := by
      simpa [columnPointers] using hcolumn
    rw [o.columnArray_eq] at harray
    rw [KernelParams.entry_of_array harray rfl rfl hindex, getElem_columnPointers]
    rfl
  values := fun column hcolumn => hb.value_column hcolumn
  inside := by
    refine ⟨b, hb, ?_⟩
    intro column hcolumn
    exact Heap.holds_advance hb.mem hb.base (hb.column_room hcolumn)
  words := by
    intro column hcolumn
    rw [hb.columnWords_eq hcolumn, o.result.columnWords_eq hcolumn]
    refine congrArg Except.ok (List.map_congr_left ?_)
    intro row hrow
    refine congrArg Word.ofBytes (slice_congr ?_)
    intro k hk
    have hword := word_in_region hcolumn (List.mem_range.mp hrow)
    have hlt : 8 * (column * o.result.capacity) + 8 * row + k < o.result.storageBytes := by
      rw [ResultSet.storageBytes]
      omega
    rw [ResultSet.columnOffset, hcopied, getElem?_zeroFilled (by rw [o.length_copied]; exact hlt),
      List.getElem?_take_of_lt hlt]

/-- A mirror that was set up is two blocks: the columns, and the array of their addresses. The
context owns both. -/
structure LaidOut (o : OutputBuffers) (mirror : Mirror) (d : Device) (s : Scope) : Prop where
  storage : (⟨d.slot, mirror.storage.value, zeroFilled (max o.result.storageBytes slotBytes)
    (o.result.storage.padded.take o.result.storageBytes)⟩ : Block) ∈ s.machine.heap.blocks
  array : (⟨d.slot, mirror.columns.value,
    zeroFilled (max (o.columnArray mirror.storage).length slotBytes)
      (o.columnArray mirror.storage)⟩ : Block) ∈ s.machine.heap.blocks
  ownsStorage : (d.slot, mirror.storage.value) ∈ s.context.keys
  ownsArray : (d.slot, mirror.columns.value) ∈ s.context.keys

theorem LaidOut.holds {s : Scope} (h : o.LaidOut mirror d s) :
    mirror.Holds o.result d s.machine.heap := by
  have hlength := o.length_copied.le.trans (le_max_left _ slotBytes)
  exact mirror_holds ⟨h.storage, rfl, rfl, length_zeroFilled hlength⟩ rfl h.array

theorem setUpMirror_laidOut {dims : LaunchDims} {s s' : Scope} {columns : Address}
    (hrun : (o.setUpMirror dims).run s = (.ok (columns, o'), s')) :
    ∃ d mirror, s.context.site = .device d ∧ o' = { o with mirror := some mirror } ∧
      mirror.columns = columns ∧ o.LaidOut mirror d s' := by
  obtain ⟨-, -, storage, s₁, hstorage, hcolumns, rfl⟩ := setUpMirror_ok hrun
  obtain ⟨d, hsite⟩ := Scope.site_of_allocDeviceWith hstorage
  have hgain := Scope.allocDeviceWith_ok hsite hstorage
  have hsite₁ : s₁.context.site = .device d := by rw [hgain.context, Context.site_hold, hsite]
  have hgain' := Scope.allocDeviceWith_ok hsite₁ hcolumns
  have hkeys : s'.context.keys = s.context.keys ++ [(d.slot, storage.value)] ++
      [(d.slot, columns.value)] := by
    rw [hgain'.context, Context.keys_hold, hsite₁, hgain.context, Context.keys_hold, hsite]
    rfl
  refine ⟨d, { storage, columns, dims }, hsite, rfl, rfl, ?_, ?_, ?_, ?_⟩
  · rw [hgain'.blocks, hgain.blocks]
    exact List.mem_cons_of_mem _ List.mem_cons_self
  · rw [hgain'.blocks]
    exact List.mem_cons_self
  · rw [hkeys]
    simp
  · rw [hkeys]
    simp

/-- A mirror that was set up holds the storage, and the context owns it. -/
theorem setUpMirror_holds {dims : LaunchDims} {s s' : Scope} {columns : Address}
    (hrun : (o.setUpMirror dims).run s = (.ok (columns, o'), s')) :
    ∃ d mirror, s.context.site = .device d ∧ o' = { o with mirror := some mirror } ∧
      mirror.columns = columns ∧ o.result.storageBytes ≤ o.result.storage.size ∧
      (d.slot, mirror.storage.value) ∈ s'.context.keys ∧
      mirror.Holds o.result d s'.machine.heap := by
  obtain ⟨-, hsize, -⟩ := setUpMirror_ok hrun
  obtain ⟨d, mirror, hsite, ho', hcolumns, hlaid⟩ := setUpMirror_laidOut hrun
  exact ⟨d, mirror, hsite, ho', hcolumns, hsize, hlaid.ownsStorage, hlaid.holds⟩

/-- Copying back from a mirror that the device has makes the first rows of every column those of the
mirror, and leaves the rows behind them. -/
theorem copyBack_of_mirror (hmirror : o.mirror = some mirror) (hb : mirror.IsBlock o.result d h b)
    (hsize : o.result.storageBytes ≤ o.result.storage.size) (hrows : rows ≤ o.result.capacity) :
    ∃ o', (copyBack h d rows).run o = (.ok (), o') ∧ o'.mirror = o.mirror ∧
    o.result.Alike o'.result ∧
      ∀ column < o.result.columnCount, ∃ words, mirror.columnWords o.result d h column = .ok words ∧
        o'.result.columnWords column =
          words.take rows ++ (o.result.columnWords column).drop rows := by
  obtain ⟨o', hrun, hmirror', halike, hbytes⟩ :=
    copyBack_ok hmirror hb.mem hb.owner hb.base hb.room hsize hrows
  refine ⟨o', hrun, hmirror', halike, ?_⟩
  intro column hcolumn
  refine ⟨_, hb.columnWords_eq hcolumn, ?_⟩
  have hcolumn' : column < o'.result.columnCount := by rwa [halike.columnCount]
  rw [o'.result.columnWords_eq hcolumn', o.result.columnWords_eq hcolumn, halike.capacity]
  apply map_range_split
  intro row hrow
  have hrow_bytes := hbytes column hcolumn row hrow
  rw [ResultSet.columnOffset, ResultSet.columnOffset, halike.capacity]
  split_ifs with hcopied
  · refine congrArg Word.ofBytes (slice_congr fun k hk => ?_)
    rw [hrow_bytes k hk, if_pos hcopied]
  · refine congrArg Word.ofBytes (slice_congr fun k hk => ?_)
    rw [hrow_bytes k hk, if_neg hcopied]

theorem copyBack_unmirrored (h : Heap) (d : Device) (rows : ℕ) (hmirror : o.mirror = none) :
    (copyBack h d rows).run o = (.error .noMirror, o) := by
  unfold Action.run copyBack
  rw [hmirror]

theorem copyBack_tooLong (h : Heap) (d : Device) (hmirror : o.mirror = some mirror)
    (hrows : o.result.capacity < rows) :
    (copyBack h d rows).run o = (.error (.copyBackTooLong rows o.result.capacity), o) := by
  unfold Action.run copyBack
  rw [hmirror]
  exact if_pos hrows

/-- A device of which no live allocation overlaps the mirror has nothing to copy back from. -/
theorem copyBack_unreached (hmirror : o.mirror = some mirror)
    (hsize : o.result.storageBytes ≤ o.result.storage.size) (hcolumns : 0 < o.result.columnCount)
    (hpos : 0 < rows) (hrows : rows ≤ o.result.capacity)
    (hnone : ¬h.Overlaps d mirror.storage.value o.result.storageBytes) :
    (copyBack h d rows).run o =
      (.error (.accessOutsideAllocations mirror.storage (8 * rows)), o) := by
  have hin := ResultSet.column_in_region hrows hcolumns
  rw [ResultSet.storageBytes] at hnone hsize
  rw [Nat.zero_mul, Nat.mul_zero, Nat.zero_add] at hin
  have hview : o.result.checkView (o.result.columnOffset 0 + 8 * rows) = .ok () := by
    apply ResultSet.checkView_of_le
    rw [ResultSet.columnOffset]
    omega
  have hcopy : h.copyFrom d (mirror.storage.advance (o.result.columnOffset 0)) (8 * rows) =
      .error (.accessOutsideAllocations mirror.storage (8 * rows)) := by
    rw [ResultSet.columnOffset, Nat.zero_mul, Nat.mul_zero, Address.advance_zero]
    exact Heap.copyFrom_of_not_overlaps (by omega) hin hnone
  obtain ⟨others, hothers⟩ := Nat.exists_eq_succ_of_ne_zero hcolumns.ne'
  have hfirst : (copyColumns h d mirror.storage rows (List.range o.result.columnCount)).run
      o.result = (.error (.accessOutsideAllocations mirror.storage (8 * rows)), o.result) := by
    rw [hothers, List.range_succ_eq_map, copyColumns, Action.run_bind, Action.run_step, hview,
      hcopy]
    rfl
  unfold Action.run copyBack
  rw [hmirror]
  simp only
  rw [if_neg hrows.not_gt, hfirst, ← hmirror]

end OutputBuffers

end KernelDispatch
