import KernelDispatch.Output.Buffers
import KernelDispatch.Proofs.Device.Blocks

/-!
# What the stores of a kernel leave in the columns

The output of a kernel is a region of words, column after column, both in a result and in its mirror
on a device. A byte of a word is what the last store that covers it has put there, and zero if no
store does. A result reads back these words, row by row, up to its entry count.
-/

namespace KernelDispatch

/-- Whether a store sets byte `k` of the word at a row of a column. A store of more than a word is
lost, as one beside the columns is. -/
def Store.covers (s : Store) (column row k : ℕ) : Bool :=
  s.column == column && s.row == row && k < s.bytes.length && s.bytes.length ≤ slotBytes

/-- Byte `k` of a word after some stores: what the last one that covers it has stored there, zero if
there is none. -/
def storedByte (stores : List Store) (column row k : ℕ) : UInt8 :=
  match (stores.filter (·.covers column row k)).getLast? with
  | some s => s.bytes.getD k 0
  | none => 0

def storedWord (stores : List Store) (column row : ℕ) : Word :=
  Word.ofBytes ((List.range slotBytes).map (storedByte stores column row))

/-- A region of `columns` columns after a store. -/
def storeBytes (columns capacity : ℕ) (bs : Bytes) (s : Store) : Bytes :=
  if s.column < columns ∧ s.row < capacity ∧ s.bytes.length ≤ slotBytes then
    overwrite bs (8 * (s.column * capacity) + 8 * s.row) s.bytes
  else bs

theorem storedByte_nil (column row k : ℕ) : storedByte [] column row k = 0 := rfl

theorem storedByte_concat (stores : List Store) (s : Store) (column row k : ℕ) :
    storedByte (stores ++ [s]) column row k =
      if s.covers column row k then s.bytes.getD k 0 else storedByte stores column row k := by
  unfold storedByte
  rw [List.filter_append]
  split_ifs with hcovers
  · have hlast : [s].filter (·.covers column row k) = [s] := by simp [hcovers]
    rw [hlast, List.getLast?_concat]
  · have hlast : [s].filter (·.covers column row k) = [] := by simp [hcovers]
    rw [hlast, List.append_nil]

theorem Store.covers_iff {s : Store} {column row k : ℕ} :
    s.covers column row k = true ↔
      s.column = column ∧ s.row = row ∧ k < s.bytes.length ∧ s.bytes.length ≤ slotBytes := by
  simp only [covers, Bool.and_eq_true, beq_iff_eq, decide_eq_true_iff, and_assoc]

section Region

variable {columns capacity column row : ℕ}

theorem word_in_region (hcolumn : column < columns) (hrow : row < capacity) :
    8 * (column * capacity) + 8 * row + 8 ≤ 8 * (columns * capacity) := by
  have hcolumns : (column + 1) * capacity ≤ columns * capacity := Nat.mul_le_mul_right _ hcolumn
  rw [Nat.add_mul, one_mul] at hcolumns
  omega

theorem words_apart {column' row' : ℕ} (hrow : row < capacity) (hrow' : row' < capacity)
    (hne : ¬(column = column' ∧ row = row')) :
    column * capacity + row < column' * capacity + row' ∨
      column' * capacity + row' < column * capacity + row := by
  rcases Nat.lt_trichotomy column column' with hlt | heq | hgt
  · have hcolumns : (column + 1) * capacity ≤ column' * capacity := Nat.mul_le_mul_right _ hlt
    rw [Nat.add_mul, one_mul] at hcolumns
    omega
  · subst heq
    omega
  · have hcolumns : (column' + 1) * capacity ≤ column * capacity := Nat.mul_le_mul_right _ hgt
    rw [Nat.add_mul, one_mul] at hcolumns
    omega

@[simp] theorem length_storeBytes (bs : Bytes) (s : Store) :
    (storeBytes columns capacity bs s).length = bs.length := by
  unfold storeBytes
  split_ifs <;> simp

@[simp] theorem length_foldl_storeBytes (stores : List Store) (bs : Bytes) :
    (stores.foldl (storeBytes columns capacity) bs).length = bs.length := by
  induction stores generalizing bs with
  | nil => rfl
  | cons s rest ih => rw [List.foldl_cons, ih, length_storeBytes]

theorem getElem?_storeBytes {bs : Bytes} {s : Store} {k : ℕ}
    (hfits : 8 * (columns * capacity) ≤ bs.length) (hcolumn : column < columns)
    (hrow : row < capacity) (hk : k < 8) :
    (storeBytes columns capacity bs s)[8 * (column * capacity) + 8 * row + k]? =
      if s.covers column row k then some (s.bytes.getD k 0)
      else bs[8 * (column * capacity) + 8 * row + k]? := by
  by_cases hcovers : s.covers column row k = true
  · rw [if_pos hcovers]
    obtain ⟨rfl, rfl, hlen, hword⟩ := Store.covers_iff.mp hcovers
    have hin := word_in_region hcolumn hrow
    have hbound : s.bytes.length ≤ 8 := hword
    rw [storeBytes, if_pos ⟨hcolumn, hrow, hword⟩,
      getElem?_overwrite_of_inside (by omega) (by omega) (by omega), Nat.add_sub_cancel_left,
      List.getD_eq_getElem?_getD, List.getElem?_eq_getElem hlen, Option.getD_some]
  · rw [if_neg hcovers]
    unfold storeBytes
    split_ifs with hadmits
    · obtain ⟨hcolumn', hrow', hword⟩ := hadmits
      have hbound : s.bytes.length ≤ 8 := hword
      apply getElem?_overwrite_of_outside
      by_cases hsame : s.column = column ∧ s.row = row
      · obtain ⟨rfl, rfl⟩ := hsame
        right
        by_contra hinside
        exact hcovers (Store.covers_iff.mpr ⟨rfl, rfl, by omega, hword⟩)
      · rcases words_apart hrow' hrow hsame with hlt | hgt
        · right
          omega
        · left
          omega
    · rfl

/-- After any stores over zeros every byte of a column is what was last stored there. -/
theorem getElem?_foldl_storeBytes {n k : ℕ} (stores : List Store)
    (hfits : 8 * (columns * capacity) ≤ n) (hcolumn : column < columns) (hrow : row < capacity)
    (hk : k < 8) :
    (stores.foldl (storeBytes columns capacity)
        (List.replicate n 0))[8 * (column * capacity) + 8 * row + k]? =
      some (storedByte stores column row k) := by
  induction stores using List.reverseRecOn with
  | nil =>
    have hin := word_in_region hcolumn hrow
    rw [List.foldl_nil, List.getElem?_replicate, if_pos (by omega), storedByte_nil]
  | append_singleton stores s ih =>
    rw [List.foldl_append, List.foldl_cons, List.foldl_nil, storedByte_concat,
      getElem?_storeBytes (by simpa using hfits) hcolumn hrow hk, ih]
    split_ifs <;> rfl

end Region

theorem getElem?_slice {bs : Bytes} {offset len k : ℕ} (h : k < len) :
    (slice bs offset len)[k]? = bs[offset + k]? := by
  rw [slice, List.getElem?_take_of_lt h, List.getElem?_drop]

theorem slice_eq_map {bs : Bytes} {offset len : ℕ} {f : ℕ → UInt8}
    (h : ∀ k < len, bs[offset + k]? = some (f k)) :
    slice bs offset len = (List.range len).map f := by
  apply List.ext_getElem?
  intro k
  rcases Nat.lt_or_ge k len with hlt | hge
  · rw [getElem?_slice hlt, h k hlt, List.getElem?_map, List.getElem?_range hlt, Option.map_some]
  · rw [List.getElem?_eq_none (by simp [slice]; omega), List.getElem?_eq_none (by simpa using hge)]

theorem slice_slice {bs : Bytes} {offset len start n : ℕ} (h : start + n ≤ len) :
    slice (slice bs offset len) start n = slice bs (offset + start) n := by
  rw [slice, slice, slice, List.drop_take, List.drop_drop, List.take_take]
  congr 1
  omega

theorem slice_congr {bs bs' : Bytes} {offset len : ℕ}
    (h : ∀ k < len, bs[offset + k]? = bs'[offset + k]?) :
    slice bs offset len = slice bs' offset len := by
  apply List.ext_getElem?
  intro k
  rcases Nat.lt_or_ge k len with hlt | hge
  · rw [getElem?_slice hlt, getElem?_slice hlt, h k hlt]
  · rw [List.getElem?_eq_none (by simp [slice]; omega),
      List.getElem?_eq_none (by simp [slice]; omega)]

theorem wordsOf_slice {bs : Bytes} {offset n : ℕ} (h : offset + 8 * n ≤ bs.length) :
    wordsOf (slice bs offset (8 * n)) =
      (List.range n).map fun row => Word.ofBytes (slice bs (offset + 8 * row) 8) := by
  rw [wordsOf_eq, length_slice h, Nat.mul_div_cancel_left n (by norm_num)]
  apply List.map_congr_left
  intro row hrow
  rw [List.mem_range] at hrow
  rw [slice_slice (by omega)]

namespace ResultSet

variable (r : ResultSet) {column : ℕ}

/-- A result that differs from another one in the contents of its storage only. -/
structure Alike (r' : ResultSet) : Prop where
  types : r'.types = r.types
  capacity : r'.capacity = r.capacity
  entries : r'.entries = r.entries
  footprint : r'.storage.footprint = r.storage.footprint

theorem Alike.refl : r.Alike r := ⟨rfl, rfl, rfl, rfl⟩

theorem Alike.trans {r r' r'' : ResultSet} (h : r.Alike r') (h' : r'.Alike r'') : r.Alike r'' :=
  ⟨h'.types.trans h.types, h'.capacity.trans h.capacity, h'.entries.trans h.entries,
    h'.footprint.trans h.footprint⟩

theorem Alike.columnCount {r r' : ResultSet} (h : r.Alike r') : r'.columnCount = r.columnCount := by
  rw [ResultSet.columnCount, h.types, ← ResultSet.columnCount]

theorem alike_withBytes (offset : ℕ) (src : Bytes) :
    r.Alike (r.withBytes offset src) := ⟨rfl, rfl, rfl, rfl⟩

theorem length_padded : r.storage.padded.length = 8 * r.storage.slotCount := r.storage.length_padded

theorem columnWords_eq (hcolumn : column < r.columnCount) :
    r.columnWords column = (List.range r.capacity).map fun row =>
      Word.ofBytes (slice r.storage.padded (r.columnOffset column + 8 * row) 8) := by
  have hcovered : 8 * (r.columnCount * r.capacity) ≤ r.storage.padded.length := by
    rw [r.length_padded]
    exact Nat.mul_le_mul_left 8 r.covered
  have hcolumns : (column + 1) * r.capacity ≤ r.columnCount * r.capacity :=
    Nat.mul_le_mul_right _ hcolumn
  rw [Nat.add_mul, one_mul] at hcolumns
  rw [columnWords, wordsOf_slice (by rw [columnOffset]; omega)]

theorem slots_eq (hcolumn : column < r.columnCount) :
    r.slots column = .ok ((List.range r.entries).map fun row =>
      Word.ofBytes (slice r.storage.padded (r.columnOffset column + 8 * row) 8)) := by
  have htype : r.columnType column = .ok (r.types.get ⟨column, hcolumn⟩) := by
    rw [columnType, List.getElem?_eq_getElem hcolumn]
    rfl
  have hwords : (r.columnWords column).take r.entries = (List.range r.entries).map fun row =>
      Word.ofBytes (slice r.storage.padded (r.columnOffset column + 8 * row) 8) := by
    rw [r.columnWords_eq hcolumn, ← List.map_take, List.take_range, Nat.min_eq_left r.entries_le]
  rw [slots, htype, ← hwords]
  rfl

/-- A column that is known byte by byte reads as the words that were stored. -/
theorem slots_of_stores {stores : List Store} (hcolumn : column < r.columnCount)
    (hbytes : ∀ row < r.entries, ∀ k < 8,
      r.storage.padded[r.columnOffset column + 8 * row + k]? =
        some (storedByte stores column row k)) :
    r.slots column = .ok ((List.range r.entries).map (storedWord stores column)) := by
  rw [r.slots_eq hcolumn]
  refine congrArg Except.ok (List.map_congr_left ?_)
  intro row hrow
  have hword : slice r.storage.padded (r.columnOffset column + 8 * row) 8 =
      (List.range slotBytes).map (storedByte stores column row) :=
    slice_eq_map (hbytes row (List.mem_range.mp hrow))
  rw [hword, storedWord]

theorem padded_store (s : Store) :
    (r.store s).storage.padded = storeBytes r.columnCount r.capacity r.storage.padded s := by
  unfold store storeBytes
  by_cases hadmits : s.column < r.columnCount ∧ s.row < r.capacity ∧ s.bytes.length ≤ slotBytes
  · have hbool : r.admits s = true := by
      simp only [admits, Bool.and_eq_true, decide_eq_true_iff]
      exact ⟨⟨hadmits.1, hadmits.2.1⟩, hadmits.2.2⟩
    rw [if_pos hbool, if_pos hadmits]
    rfl
  · have hbool : ¬r.admits s = true := by
      simp only [admits, Bool.and_eq_true, decide_eq_true_iff]
      exact fun h => hadmits ⟨h.1.1, h.1.2, h.2⟩
    rw [if_neg hbool, if_neg hadmits]

theorem alike_store (s : Store) : r.Alike (r.store s) :=
  ⟨r.types_store s, r.capacity_store s, r.entries_store s, r.footprint_store s⟩

theorem alike_foldl_store (stores : List Store) : r.Alike (stores.foldl store r) := by
  induction stores generalizing r with
  | nil => exact .refl r
  | cons s rest ih => exact (r.alike_store s).trans (ih (r.store s))

theorem padded_foldl_store (stores : List Store) :
    (stores.foldl store r).storage.padded =
      stores.foldl (storeBytes r.columnCount r.capacity) r.storage.padded := by
  induction stores generalizing r with
  | nil => rfl
  | cons s rest ih =>
    rw [List.foldl_cons, ih, (r.alike_store s).columnCount, capacity_store, padded_store,
      List.foldl_cons]

end ResultSet

end KernelDispatch
