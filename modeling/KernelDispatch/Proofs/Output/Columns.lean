import KernelDispatch.Proofs.Dispatcher.Reconciliation
import KernelDispatch.Proofs.Output.Views

/-!
# A result as independent columns

While a result is filled, kernels store to the words of its columns and its count is set, in any
order. What is stored does not depend on the counts, and a count that is refused leaves no trace. So
each column reads as what was last stored at each of its rows, up to the count that was last
accepted, and no store to one column shows in another.
-/

namespace KernelDispatch

/-- One change of a result while it is being filled. -/
inductive ResultEdit
  | store (s : Store)
  | setEntries (rows : ℕ)
deriving DecidableEq, Repr

namespace ResultEdit

def store? : ResultEdit → Option Store
  | store s => some s
  | setEntries _ => none

def rows? : ResultEdit → Option ℕ
  | store _ => none
  | setEntries rows => some rows

def stores (edits : List ResultEdit) : List Store := edits.filterMap store?

/-- The count after some edits: the last one within the capacity, and the capacity if there is
none. -/
def entries (capacity : ℕ) (edits : List ResultEdit) : ℕ :=
  ((edits.filterMap rows?).filter (· ≤ capacity)).getLastD capacity

variable {capacity : ℕ} (edits : List ResultEdit)

@[simp] theorem stores_concat_store (s : Store) :
    stores (edits ++ [store s]) = stores edits ++ [s] := by
  simp [stores, store?]

@[simp] theorem stores_concat_setEntries (rows : ℕ) :
    stores (edits ++ [setEntries rows]) = stores edits := by
  simp [stores, store?]

@[simp] theorem entries_concat_store (s : Store) :
    entries capacity (edits ++ [store s]) = entries capacity edits := by
  have hrows : (edits ++ [store s]).filterMap rows? = edits.filterMap rows? := by simp [rows?]
  rw [entries, hrows, ← entries]

@[simp] theorem stores_append_counts (counts : List ℕ) :
    stores (edits ++ counts.map setEntries) = stores edits := by
  have hnone : (counts.map setEntries).filterMap store? = [] := by
    rw [List.filterMap_map, List.filterMap_eq_nil_iff]
    intro rows _
    rfl
  rw [stores, List.filterMap_append, hnone, List.append_nil, ← stores]

theorem entries_concat_setEntries (rows : ℕ) :
    entries capacity (edits ++ [setEntries rows]) =
      if rows ≤ capacity then rows else entries capacity edits := by
  have hrows : (edits ++ [setEntries rows]).filterMap rows? = edits.filterMap rows? ++ [rows] := by
    simp [rows?]
  rw [entries, hrows, List.filter_append]
  split_ifs with hle
  · have hlast : [rows].filter (· ≤ capacity) = [rows] := by simpa using hle
    rw [hlast, List.getLastD_concat]
  · have hlast : [rows].filter (· ≤ capacity) = [] := by simpa using hle
    rw [hlast, List.append_nil, ← entries]

end ResultEdit

theorem storedWord_concat_of_hit (stores : List Store) {s : Store}
    (hword : s.bytes.length ≤ slotBytes) :
    storedWord (stores ++ [s]) s.column s.row =
      Word.ofBytes (overwrite (storedWord stores s.column s.row).bytes 0 s.bytes) := by
  set before := (List.range slotBytes).map (storedByte stores s.column s.row) with hbefore
  have hlen : before.length = slotBytes := by simp [hbefore]
  have hbytes : (storedWord stores s.column s.row).bytes = before := Word.bytes_ofBytes hlen
  rw [hbytes, storedWord]
  refine congrArg Word.ofBytes (List.ext_getElem? fun k => ?_)
  rcases Nat.lt_or_ge k slotBytes with hk | hk
  · rw [List.getElem?_map, List.getElem?_range hk, Option.map_some, storedByte_concat]
    rcases Nat.lt_or_ge k s.bytes.length with hin | hout
    · rw [if_pos (Store.covers_iff.mpr ⟨rfl, rfl, hin, hword⟩),
        getElem?_overwrite_of_inside (by omega) (by omega) (by omega), Nat.sub_zero,
        List.getD_eq_getElem?_getD, List.getElem?_eq_getElem hin, Option.getD_some]
    · have hcovers : ¬s.covers s.column s.row k = true := by
        rw [Store.covers_iff]
        omega
      rw [if_neg hcovers, getElem?_overwrite_of_outside (by omega), hbefore, List.getElem?_map,
        List.getElem?_range hk, Option.map_some]
  · rw [List.getElem?_eq_none (by simpa using hk), List.getElem?_eq_none (by simpa [hlen] using hk)]

theorem storedWord_concat_of_miss (stores : List Store) {s : Store} {column row : ℕ}
    (hmiss : s.column = column → s.row = row → slotBytes < s.bytes.length) :
    storedWord (stores ++ [s]) column row = storedWord stores column row := by
  rw [storedWord, storedWord]
  refine congrArg Word.ofBytes (List.map_congr_left fun k _ => ?_)
  have hcovers : ¬s.covers column row k = true := by
    rw [Store.covers_iff]
    rintro ⟨hcolumn, hrow, -, hword⟩
    exact absurd (hmiss hcolumn hrow) hword.not_gt
  rw [storedByte_concat, if_neg hcovers]

namespace ResultSet

variable {types : List DataType} {size capacity column : ℕ} {r r₀ : ResultSet}

def edit : ResultEdit → Action ResultSet Unit
  | .store s => .update (·.store s)
  | .setEntries rows => .step fun r => (r.setEntries rows).map ((), ·)

/-- The result after some edits, whether they were accepted or not. -/
def after (edits : List ResultEdit) (r : ResultSet) : ResultSet :=
  edits.foldl (fun r e => ((edit e).run r).2) r

theorem run_setEntries_of_le {rows : ℕ} (hrows : rows ≤ r.capacity) :
    (edit (.setEntries rows)).run r =
      (.ok (), { r with entries := rows, entries_le := hrows }) := by
  rw [edit, Action.run_step, setEntries, dif_pos hrows]
  rfl

theorem run_setEntries_of_lt {rows : ℕ} (hrows : r.capacity < rows) :
    (edit (.setEntries rows)).run r = (.error (.tooManyRows rows r.capacity), r) := by
  rw [edit, Action.run_step, setEntries, dif_neg hrows.not_ge]
  rfl

/-- What some edits of zeroed storage have left of a result. -/
structure Edited (types : List DataType) (size capacity : ℕ) (edits : List ResultEdit)
    (r : ResultSet) : Prop where
  types_eq : r.types = types
  capacity_eq : r.capacity = capacity
  entries_eq : r.entries = ResultEdit.entries capacity edits
  padded_eq : r.storage.padded = (ResultEdit.stores edits).foldl (storeBytes types.length capacity)
    (List.replicate (8 * slotsFor size) 0)

theorem edited_create (h : create types (.zeroed size) capacity = .ok r) :
    r.Edited types size capacity [] := by
  unfold create at h
  split_ifs at h
  cases h
  exact ⟨rfl, rfl, rfl, rfl⟩

namespace Edited

variable {edits : List ResultEdit}

/-- Each edit, accepted or not, leaves what one more edit leaves. -/
theorem step (h : r.Edited types size capacity edits) (e : ResultEdit) :
    ((edit e).run r).2.Edited types size capacity (edits ++ [e]) := by
  cases e with
  | store s =>
    refine ⟨(types_store r s).trans h.types_eq, (capacity_store r s).trans h.capacity_eq, ?_, ?_⟩
    · rw [ResultEdit.entries_concat_store]
      exact (entries_store r s).trans h.entries_eq
    · have hcount : r.columnCount = types.length := congrArg List.length h.types_eq
      rw [ResultEdit.stores_concat_store, List.foldl_append, ← h.padded_eq, ← hcount,
        ← h.capacity_eq]
      exact padded_store r s
  | setEntries rows =>
    have hstores : ∀ r' : ResultSet, r'.storage = r.storage → r'.storage.padded =
        (ResultEdit.stores (edits ++ [.setEntries rows])).foldl (storeBytes types.length capacity)
          (List.replicate (8 * slotsFor size) 0) := by
      intro r' hstorage
      rw [ResultEdit.stores_concat_setEntries, hstorage, h.padded_eq]
    rcases Nat.lt_or_ge r.capacity rows with hlt | hle
    · rw [run_setEntries_of_lt hlt]
      refine ⟨h.types_eq, h.capacity_eq, ?_, hstores _ rfl⟩
      rw [ResultEdit.entries_concat_setEntries, if_neg (by rw [← h.capacity_eq]; omega)]
      exact h.entries_eq
    · rw [run_setEntries_of_le hle]
      refine ⟨h.types_eq, h.capacity_eq, ?_, hstores _ rfl⟩
      rw [ResultEdit.entries_concat_setEntries, if_pos (by rw [← h.capacity_eq]; exact hle)]

theorem run (h : r.Edited types size capacity edits) (edits' : List ResultEdit) :
    (r.after edits').Edited types size capacity (edits ++ edits') := by
  induction edits' generalizing r edits with
  | nil =>
    rw [List.append_nil]
    exact h
  | cons e rest ih =>
    rw [List.append_cons]
    exact ih (h.step e)

theorem columnCount_eq (h : r.Edited types size capacity edits) : r.columnCount = types.length :=
  congrArg List.length h.types_eq

/-- A column reads as what was last stored at its rows. -/
theorem slots_eq (h : r.Edited types size capacity edits) (hcolumn : column < types.length) :
    r.slots column =
      .ok ((List.range r.entries).map (storedWord (ResultEdit.stores edits) column)) := by
  apply r.slots_of_stores (by rwa [h.columnCount_eq])
  intro row hrow k hk
  have hfits : 8 * (types.length * capacity) ≤ 8 * slotsFor size := by
    have hlen := r.length_padded
    rw [h.padded_eq, length_foldl_storeBytes, List.length_replicate] at hlen
    rw [hlen, ← h.columnCount_eq, ← h.capacity_eq]
    exact Nat.mul_le_mul_left 8 r.covered
  have hrows : row < capacity := by
    rw [← h.capacity_eq]
    exact hrow.trans_le r.entries_le
  rw [h.padded_eq, columnOffset, h.capacity_eq]
  exact getElem?_foldl_storeBytes _ hfits hcolumn hrows hk

theorem slots_store (h : r.Edited types size capacity edits) (s : Store)
    (hcolumn : column < types.length) : (r.store s).slots column =
      .ok ((List.range r.entries).map (storedWord (ResultEdit.stores edits ++ [s]) column)) := by
  have hslots := (h.step (.store s)).slots_eq hcolumn
  rw [ResultEdit.stores_concat_store] at hslots
  have hentries : (r.store s).entries = r.entries := entries_store r s
  rw [← hentries]
  exact hslots

theorem entries_le (h : r.Edited types size capacity edits) : r.entries ≤ capacity :=
  h.capacity_eq ▸ r.entries_le

end Edited

theorem read_in_storage (r : ResultSet) (hcolumn : column < r.columnCount) :
    column * r.capacity + r.entries ≤ r.storage.slots.length := by
  have hcolumns : (column + 1) * r.capacity ≤ r.columnCount * r.capacity :=
    Nat.mul_le_mul_right _ hcolumn
  rw [Nat.add_mul, one_mul] at hcolumns
  have hcovered : r.columnCount * r.capacity ≤ r.storage.slotCount := r.covered
  have hentries := r.entries_le
  rw [HostBuffer.length_slots]
  omega

theorem slots_eq_storage (r : ResultSet) (hcolumn : column < r.columnCount) :
    r.slots column = .ok ((r.storage.slots.drop (column * r.capacity)).take r.entries) := by
  have hin := r.read_in_storage hcolumn
  rw [HostBuffer.length_slots] at hin
  have hwords : r.storage.padded.length / 8 = r.storage.slotCount := by
    rw [r.length_padded, Nat.mul_div_cancel_left _ (by norm_num)]
  rw [r.slots_eq hcolumn, HostBuffer.slots, wordsOf_eq, hwords]
  refine congrArg Except.ok (List.ext_getElem? fun row => ?_)
  rcases Nat.lt_or_ge row r.entries with hlt | hge
  · rw [List.getElem?_take_of_lt hlt, List.getElem?_drop, List.getElem?_map, List.getElem?_map,
      List.getElem?_range hlt, List.getElem?_range (by omega), Option.map_some, Option.map_some,
      columnOffset, Nat.mul_add]
  · rw [List.getElem?_eq_none (by simpa using hge), List.getElem?_eq_none (by simp; omega)]

theorem integers_eq_slots (r : ResultSet) {t : DataType} (ht : r.types[column]? = some t)
    (hinteger : t.isInteger = true) :
    r.integers column = (·.map BitVec.toInt) <$> r.slots column := by
  have htype : r.columnType column = .ok t := by rw [columnType, ht]
  rw [integers, slots, htype]
  exact if_pos hinteger

theorem floats_eq_slots (r : ResultSet) (ht : r.types[column]? = some .float64) :
    r.floats column = r.slots column := by
  have htype : r.columnType column = .ok .float64 := by rw [columnType, ht]
  rw [floats, slots, htype]
  rfl

theorem singles_eq_slots (r : ResultSet) (ht : r.types[column]? = some .float32) :
    r.floats column = (·.map fun w => widenSingle (w.setWidth 32)) <$> r.slots column := by
  have htype : r.columnType column = .ok .float32 := by rw [columnType, ht]
  rw [floats, slots, htype]
  rfl

theorem integers_ok_iff (r : ResultSet) : (∃ ns, r.integers column = .ok ns) ↔
    ∃ t, r.types[column]? = some t ∧ t.isInteger = true := by
  cases ht : r.types[column]? with
  | none => simp [integers, columnType, ht, Bind.bind, Except.bind]
  | some t =>
    rw [integers, columnType, ht]
    cases hinteger : t.isInteger <;>
      simp [hinteger, Bind.bind, Except.bind, Pure.pure, Except.pure]

/-- A column answers floats exactly if its type is one of floats. -/
theorem floats_ok_iff (r : ResultSet) : (∃ vs, r.floats column = .ok vs) ↔
    ∃ t, r.types[column]? = some t ∧ t.isFloat = true := by
  cases ht : r.types[column]? with
  | none => simp [floats, columnType, ht, Bind.bind, Except.bind]
  | some t =>
    rw [floats, columnType, ht]
    cases t <;> simp [DataType.isFloat, Bind.bind, Except.bind, Pure.pure, Except.pure]

theorem reads_outside (r : ResultSet) (hcolumn : r.columnCount ≤ column) :
    r.slots column = .error (.columnOutOfBounds column r.columnCount) ∧
    r.integers column = .error (.columnOutOfBounds column r.columnCount) ∧
    r.floats column = .error (.columnOutOfBounds column r.columnCount) := by
  have htype : r.columnType column = .error (.columnOutOfBounds column r.columnCount) := by
    rw [columnType, List.getElem?_eq_none hcolumn]
  refine ⟨?_, ?_, ?_⟩
  · rw [slots, htype]
    rfl
  · rw [integers, htype]
    rfl
  · rw [floats, htype]
    rfl

/-- What a result shows of the edits that were made to it. -/
structure ReadsAsColumns (types : List DataType) (capacity : ℕ) (edits : List ResultEdit)
    (r : ResultSet) : Prop where
  types_eq : r.types = types
  capacity_eq : r.capacity = capacity
  /-- The count is the last one that was accepted. -/
  entries_eq : r.entries = ResultEdit.entries capacity edits
  entries_le : r.entries ≤ capacity
  /-- A column is a stretch of the storage. -/
  in_storage : ∀ column < types.length,
    column * capacity + r.entries ≤ r.storage.slots.length ∧
    r.slots column = .ok ((r.storage.slots.drop (column * capacity)).take r.entries)
  /-- Every row holds what was last stored there, over zero. -/
  slots_eq : ∀ column < types.length,
    r.slots column = .ok ((List.range r.entries).map (storedWord (ResultEdit.stores edits) column))
  integers_eq : ∀ (column : ℕ) (t : DataType), types[column]? = some t → t.isInteger = true →
    r.integers column = (·.map BitVec.toInt) <$> r.slots column
  doubles_eq : ∀ column : ℕ, types[column]? = some .float64 → r.floats column = r.slots column
  singles_eq : ∀ column : ℕ, types[column]? = some .float32 →
    r.floats column = (·.map fun w => widenSingle (w.setWidth 32)) <$> r.slots column
  /-- One more store changes the word that it hits, if this is read. -/
  store_hits : ∀ s : Store, s.column < types.length → s.row < capacity →
    s.bytes.length ≤ slotBytes → (r.store s).slots s.column =
      (·.modify s.row fun w => Word.ofBytes (overwrite w.bytes 0 s.bytes)) <$> r.slots s.column
  /-- One more store does not show in any other column. -/
  store_misses : ∀ (s : Store) (column : ℕ), s.column ≠ column →
    (r.store s).slots column = r.slots column
  accepts : ∀ rows (hrows : rows ≤ r.capacity), (edit (.setEntries rows)).run r =
    (.ok (), { r with entries := rows, entries_le := hrows })
  refuses : ∀ rows, capacity < rows →
    (edit (.setEntries rows)).run r = (.error (.tooManyRows rows capacity), r) ∧
    (Failure.tooManyRows rows capacity).kind = .contractViolation
  /-- Whatever the count was in between, setting it back shows the same words. -/
  restores : ∀ (counts : List ℕ) (column : ℕ),
    (r.after (counts.map .setEntries ++ [.setEntries r.entries])).slots column = r.slots column
  outside : ∀ column, types.length ≤ column →
    r.slots column = .error (.columnOutOfBounds column types.length) ∧
    r.integers column = .error (.columnOutOfBounds column types.length) ∧
    r.floats column = .error (.columnOutOfBounds column types.length)

namespace Edited

variable {edits : List ResultEdit}

theorem store_hits (h : r.Edited types size capacity edits) {s : Store}
    (hcolumn : s.column < types.length) (hword : s.bytes.length ≤ slotBytes) :
    (r.store s).slots s.column =
      (·.modify s.row fun w => Word.ofBytes (overwrite w.bytes 0 s.bytes)) <$>
        r.slots s.column := by
  have hrow (row : ℕ) : storedWord (ResultEdit.stores edits ++ [s]) s.column row =
      (if s.row = row then fun w => Word.ofBytes (overwrite w.bytes 0 s.bytes) else id)
        (storedWord (ResultEdit.stores edits) s.column row) := by
    split_ifs with heq
    · subst heq
      exact storedWord_concat_of_hit _ hword
    · exact storedWord_concat_of_miss _ fun _ h => absurd h heq
  rw [h.slots_store s hcolumn, h.slots_eq hcolumn]
  refine congrArg Except.ok (List.ext_getElem? fun row => ?_)
  rw [List.getElem?_modify, List.getElem?_map, List.getElem?_map]
  rcases Nat.lt_or_ge row r.entries with hlt | hge
  · rw [List.getElem?_range hlt, Option.map_some, Option.map_some, hrow]
    split_ifs <;> rfl
  · rw [List.getElem?_eq_none (by simpa using hge)]
    rfl

theorem store_misses (h : r.Edited types size capacity edits) {s : Store}
    (hne : s.column ≠ column) : (r.store s).slots column = r.slots column := by
  rcases Nat.lt_or_ge column types.length with hcolumn | hcolumn
  · rw [h.slots_store s hcolumn, h.slots_eq hcolumn]
    refine congrArg Except.ok (List.map_congr_left fun row _ => ?_)
    exact storedWord_concat_of_miss _ fun heq => absurd heq hne
  · have hcount : (r.store s).columnCount = r.columnCount := (r.alike_store s).columnCount
    rw [← h.columnCount_eq] at hcolumn
    rw [(r.reads_outside hcolumn).1, ((r.store s).reads_outside (by rwa [hcount])).1, hcount]

/-- Lowering and raising the count does not touch the words. -/
theorem restores (h : r.Edited types size capacity edits) (counts : List ℕ) (column : ℕ) :
    (r.after (counts.map .setEntries ++ [.setEntries r.entries])).slots column =
      r.slots column := by
  have hback := h.run (counts.map .setEntries ++ [.setEntries r.entries])
  rw [← List.append_assoc] at hback
  rcases Nat.lt_or_ge column types.length with hcolumn | hcolumn
  · have hentries := hback.entries_eq
    rw [ResultEdit.entries_concat_setEntries, if_pos h.entries_le] at hentries
    rw [hback.slots_eq hcolumn, h.slots_eq hcolumn, hentries, ResultEdit.stores_concat_setEntries,
      ResultEdit.stores_append_counts]
  · rw [← h.columnCount_eq] at hcolumn
    have hcount := hback.columnCount_eq.trans h.columnCount_eq.symm
    rw [(r.reads_outside hcolumn).1, (reads_outside _ (by rwa [hcount])).1, hcount]

end Edited

/-- A result over zeroed storage behaves as independent columns, whatever is stored to it and
however its count is set. -/
theorem reads_as_columns (hcreate : create types (.zeroed size) capacity = .ok r₀)
    (edits : List ResultEdit) : (r₀.after edits).ReadsAsColumns types capacity edits := by
  have h := (edited_create hcreate).run edits
  rw [List.nil_append] at h
  have hcount := h.columnCount_eq
  have hcapacity := h.capacity_eq
  exact {
    types_eq := h.types_eq
    capacity_eq := hcapacity
    entries_eq := h.entries_eq
    entries_le := h.entries_le
    in_storage := by
      intro column hcolumn
      rw [← hcount] at hcolumn
      rw [← hcapacity]
      exact ⟨read_in_storage _ hcolumn, slots_eq_storage _ hcolumn⟩
    slots_eq := fun _ hcolumn => h.slots_eq hcolumn
    integers_eq := fun _ _ ht => integers_eq_slots _ (h.types_eq ▸ ht)
    doubles_eq := fun _ ht => floats_eq_slots _ (h.types_eq ▸ ht)
    singles_eq := fun _ ht => singles_eq_slots _ (h.types_eq ▸ ht)
    store_hits := fun _ hcolumn _ hword => h.store_hits hcolumn hword
    store_misses := fun _ _ hne => h.store_misses hne
    accepts := fun _ hrows => run_setEntries_of_le hrows
    refuses := by
      intro rows hrows
      rw [← hcapacity] at hrows ⊢
      exact ⟨run_setEntries_of_lt hrows, kind_tooManyRows _ _⟩
    restores := h.restores
    outside := by
      intro column hcolumn
      rw [← hcount] at hcolumn ⊢
      exact reads_outside _ hcolumn }

/-- Two columns of two rows in five words. A low half is stored over a word and a count of three is
refused in between. -/
theorem reads_as_columns_two : ∃ r₀ edits r, create [.int .w64, .float32] (.zeroed 37) 2 = .ok r₀ ∧
    edits = [.store (.word 1 1 0x1122334455667788), .setEntries 1, .store (.lowHalf 1 1 0x99aabbcc),
      .setEntries 3, .store (.word 0 0 7), .setEntries 2] ∧
    r = r₀.after edits ∧ r.ReadsAsColumns [.int .w64, .float32] 2 edits ∧ r.entries = 2 ∧
    r.slots 0 = .ok [7, 0] ∧ r.slots 1 = .ok [0, 0x1122334499aabbcc] := by
  obtain ⟨r₀, hcreate⟩ : ∃ r₀, create [.int .w64, .float32] (.zeroed 37) 2 = .ok r₀ := ⟨_, rfl⟩
  refine ⟨r₀, _, _, hcreate, rfl, rfl, reads_as_columns hcreate _, ?_⟩
  cases hcreate
  exact ⟨rfl, rfl, rfl⟩

end ResultSet

end KernelDispatch
