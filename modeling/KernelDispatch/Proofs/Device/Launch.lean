import KernelDispatch.Kernel
import KernelDispatch.Proofs.Context.Ledger
import KernelDispatch.Proofs.Output.Stores

/-!
# The device memory of a launch

A launch finds six blocks of its own in front of older ones: the arrays of addresses, the cells, and
the mirror of the output. What the kernel is given is read off these blocks and those of the inputs,
and what the kernel does changes the mirror, the row count cell and the error cell, and no other
block.
-/

namespace KernelDispatch

theorem mapM_ok {α β : Type} {f : α → Except Failure β} {xs : List α} {ys : List β}
    (h : List.Forall₂ (fun x y => f x = .ok y) xs ys) : xs.mapM f = .ok ys := by
  induction h with
  | nil => rfl
  | cons hx _ ih =>
    rw [List.mapM_cons, hx]
    change (List.mapM f _ >>= _) = _
    rw [ih]
    rfl

theorem zeroFilled_word (w : Word) : zeroFilled slotBytes w.bytes = w.bytes :=
  zeroFilled_of_length w.length_bytes

def wordArray (ws : List Word) : Bytes := ws.flatMap Word.bytes

@[simp] theorem length_wordArray (ws : List Word) : (wordArray ws).length = 8 * ws.length := by
  induction ws with
  | nil => rfl
  | cons w rest ih =>
    rw [wordArray, List.flatMap_cons, List.length_append, Word.length_bytes, ← wordArray, ih,
      List.length_cons]
    omega

theorem slice_wordArray {ws : List Word} {i : ℕ} (rest : Bytes) (hi : i < ws.length) :
    slice (wordArray ws ++ rest) (8 * i) 8 = ws[i].bytes := by
  induction ws generalizing i with
  | nil => exact absurd hi (Nat.not_lt_zero i)
  | cons w others ih =>
    rw [wordArray, List.flatMap_cons, ← wordArray, List.append_assoc]
    cases i with
    | zero =>
      rw [Nat.mul_zero, slice_zero]
      exact List.take_left' w.length_bytes
    | succ i =>
      have hskip : (w.bytes ++ (wordArray others ++ rest)).drop (8 * (i + 1)) =
          (wordArray others ++ rest).drop (8 * i) := by
        rw [Nat.mul_succ, Nat.add_comm, ← List.drop_drop, List.drop_left' w.length_bytes]
      rw [slice, hskip]
      exact ih (Nat.lt_of_succ_lt_succ hi)

namespace Heap

variable {h : Heap} {b : Block} {a : Address}

theorem peekWord_base {w : Word} (hb : b ∈ h.blocks) (ha : b.base = a.value)
    (hbytes : b.bytes = w.bytes) : h.peekWord a = .ok w := by
  rw [peekWord, peek_base hb ha (by rw [hbytes, Word.length_bytes]), hbytes,
    List.take_of_length_le w.length_bytes.le]
  exact congrArg Except.ok w.ofBytes_bytes

end Heap

namespace KernelParams

variable {h : Heap} {b : Block}

theorem entry_of_array {array : Address} {ws : List Word} {n i : ℕ} (hb : b ∈ h.blocks)
    (ha : b.base = array.value) (hbytes : b.bytes = zeroFilled n (wordArray ws))
    (hi : i < ws.length) : entry h array i = .ok ⟨ws[i]⟩ := by
  have hlen : 8 * i + 8 ≤ b.bytes.length := by
    rw [hbytes, zeroFilled, List.length_append, length_wordArray]
    omega
  rw [entry, Heap.peekWord, Heap.peek_advance (8 * i) hb ha hlen, hbytes, zeroFilled,
    slice_wordArray _ hi]
  exact congrArg (fun w => Except.ok (Address.mk w)) (Word.ofBytes_bytes _)

end KernelParams

def columnPointers (storage : Address) (columns capacity : ℕ) : List Word :=
  (List.range columns).map fun column => (storage.advance (8 * (column * capacity))).word

theorem length_columnPointers (storage : Address) (columns capacity : ℕ) :
    (wordArray (columnPointers storage columns capacity)).length = 8 * columns := by
  rw [length_wordArray, columnPointers, List.length_map, List.length_range]

theorem getElem_columnPointers {storage : Address} {columns capacity column : ℕ}
    (h : column < (columnPointers storage columns capacity).length) :
    (columnPointers storage columns capacity)[column] =
      (storage.advance (8 * (column * capacity))).word := by
  simp [columnPointers]

theorem OutputBuffers.columnArray_eq (o : OutputBuffers) (storage : Address) :
    o.columnArray storage =
      wordArray (columnPointers storage o.result.columnCount o.result.capacity) := by
  rw [columnArray, wordArray, columnPointers, List.flatMap_map]
  rfl

/-- What a launch finds in device memory. -/
structure LaunchMemory where
  /-- Slot of the device. -/
  slot : ℕ
  params : KernelParams
  /-- Where the mirror starts. -/
  storage : Address
  /-- The addresses of the inputs. -/
  pointers : List Word
  told : Word
  columns : ℕ
  capacity : ℕ
  mirror : Bytes
  count : Word
  error : Bytes
  older : List Block

namespace LaunchMemory

variable (L : LaunchMemory)

def extent : ℕ := 8 * (L.columns * L.capacity)

def columnArray : Block :=
  ⟨L.slot, L.params.outputs.value, zeroFilled (max (8 * L.columns) slotBytes)
    (wordArray (columnPointers L.storage L.columns L.capacity))⟩

def mirrorBlock : Block := ⟨L.slot, L.storage.value, L.mirror⟩

def countBlock : Block := ⟨L.slot, L.params.countCell.value, L.count.bytes⟩

def errorBlock : Block := ⟨L.slot, L.params.errorCell.value, L.error⟩

def rowBlock : Block := ⟨L.slot, L.params.rowCount.value, L.told.bytes⟩

def inputArray : Block :=
  ⟨L.slot, L.params.inputs.value, zeroFilled (max (8 * L.pointers.length) slotBytes)
    (wordArray L.pointers)⟩

/-- The blocks of the launch, the newest first. -/
def fresh : List Block :=
  [L.columnArray, L.mirrorBlock, L.countBlock, L.errorBlock, L.rowBlock, L.inputArray]

/-- Which blocks are the launch's own does not depend on their contents. -/
theorem map_key_fresh : L.fresh.map Block.key =
    [(L.slot, L.params.outputs.value), (L.slot, L.storage.value),
      (L.slot, L.params.countCell.value), (L.slot, L.params.errorCell.value),
      (L.slot, L.params.rowCount.value), (L.slot, L.params.inputs.value)] := rfl

/-- The memory is as the launch expects it, and the mirror has room for all columns. -/
structure Holds (h : Heap) : Prop where
  blocks : h.blocks = L.fresh ++ L.older
  room : L.extent ≤ L.mirror.length
  error : L.error.length = slotBytes

def shape (inputSizes : List ℕ) : KernelShape := ⟨inputSizes, L.columns, L.capacity⟩

namespace Holds

variable {L} {h : Heap} {inputSizes : List ℕ}

theorem mem (hL : L.Holds h) {b : Block} (hb : b ∈ L.fresh) : b ∈ h.blocks := by
  rw [hL.blocks]
  exact List.mem_append_left _ hb

theorem input (hL : L.Holds h) {i : ℕ} {bs : Bytes} (hi : i < L.pointers.length)
    (hinput : ∃ b ∈ h.blocks, b.base = (Address.mk L.pointers[i]).value ∧ bs <+: b.bytes) :
    L.params.input h i bs.length = .ok bs := by
  obtain ⟨b, hb, ha, rest, hrest⟩ := hinput
  rw [KernelParams.input, KernelParams.entry_of_array (b := L.inputArray) (hL.mem (by simp [fresh]))
    rfl rfl hi]
  change h.peek _ _ = _
  rw [Heap.peek_base hb ha (by rw [← hrest, List.length_append]; omega), ← hrest, List.take_left]

theorem column_entry (hL : L.Holds h) {column : ℕ} (hcolumn : column < L.columns) :
    KernelParams.entry h L.params.outputs column =
      .ok (L.storage.advance (8 * (column * L.capacity))) := by
  have hi : column < (columnPointers L.storage L.columns L.capacity).length := by
    simpa [columnPointers] using hcolumn
  rw [KernelParams.entry_of_array (b := L.columnArray) (hL.mem (by simp [fresh])) rfl rfl hi,
    getElem_columnPointers]

theorem output (hL : L.Holds h) {column : ℕ} (hcolumn : column < L.columns) :
    L.params.output (L.shape inputSizes) h column =
      .ok (wordsOf (slice L.mirror (8 * (column * L.capacity)) (8 * L.capacity))) := by
  have hcolumns : (column + 1) * L.capacity ≤ L.columns * L.capacity :=
    Nat.mul_le_mul_right _ hcolumn
  rw [Nat.add_mul, one_mul] at hcolumns
  have hroom := hL.room
  rw [extent] at hroom
  rw [KernelParams.output, hL.column_entry hcolumn]
  change (h.peek _ _ >>= _) = _
  rw [Heap.peek_advance (b := L.mirrorBlock) _ (hL.mem (by simp [fresh])) rfl
    (by simp only [shape, mirrorBlock]; omega)]
  rfl

/-- What the kernel is given is what the blocks of the launch and of the inputs hold. -/
theorem view (hL : L.Holds h) {inputs : List Bytes}
    (hinputs : List.Forall₂ (fun w bs => ∃ b ∈ h.blocks, b.base = (Address.mk w).value ∧
      bs <+: b.bytes) L.pointers inputs) :
    L.params.view (L.shape (inputs.map List.length)) h = .ok
      { inputs
        rows := L.told
        outputs := (List.range L.columns).map fun column =>
          wordsOf (slice L.mirror (8 * (column * L.capacity)) (8 * L.capacity))
        countCell := L.count } := by
  have hread : ((inputs.map List.length).zipIdx.mapM fun p => L.params.input h p.2 p.1) =
      .ok inputs := by
    apply mapM_ok
    rw [List.forall₂_iff_get]
    refine ⟨by simp, fun i hi hi' => ?_⟩
    obtain ⟨hlength, hget⟩ := List.forall₂_iff_get.mp hinputs
    have hpointer : i < L.pointers.length := hlength ▸ hi'
    simpa using hL.input hpointer (hget i hpointer hi')
  have hcolumns : ((List.range L.columns).mapM fun column =>
        L.params.output (L.shape (inputs.map List.length)) h column) =
      .ok ((List.range L.columns).map fun column =>
        wordsOf (slice L.mirror (8 * (column * L.capacity)) (8 * L.capacity))) := by
    apply mapM_ok
    rw [List.forall₂_map_right_iff, List.forall₂_same]
    intro column hcolumn
    exact hL.output (List.mem_range.mp hcolumn)
  have hrows : h.peekWord L.params.rowCount = .ok L.told :=
    Heap.peekWord_base (hL.mem (b := L.rowBlock) (by simp [fresh])) rfl rfl
  have hcount : h.peekWord L.params.countCell = .ok L.count :=
    Heap.peekWord_base (hL.mem (b := L.countBlock) (by simp [fresh])) rfl rfl
  exact bind_eq_ok_iff.mpr ⟨_, hread, bind_eq_ok_iff.mpr ⟨_, hrows, bind_eq_ok_iff.mpr ⟨_, hcolumns,
    bind_eq_ok_iff.mpr ⟨_, hcount, rfl⟩⟩⟩⟩

theorem store (hL : L.Holds h) (inputSizes : List ℕ) (s : Store) :
    ∃ h', L.params.store (L.shape inputSizes) h s = .ok h' ∧
      { L with mirror := storeBytes L.columns L.capacity L.mirror s }.Holds h' := by
  by_cases hadmits : s.column < L.columns ∧ s.row < L.capacity ∧ s.bytes.length ≤ slotBytes
  · obtain ⟨hcolumn, hrow, hlen⟩ := hadmits
    have hroom := hL.room
    rw [extent] at hroom
    have hword := word_in_region hcolumn hrow
    have hbound : s.bytes.length ≤ 8 := hlen
    have hadvance : ((L.storage.advance (8 * (s.column * L.capacity))).advance (8 * s.row)) =
        L.storage.advance (8 * (s.column * L.capacity) + 8 * s.row) := by
      rw [Address.advance, Address.advance, Address.advance, BitVec.ofNat_add, BitVec.add_assoc]
    have hsplit : h.blocks = [L.columnArray] ++ L.mirrorBlock ::
        ([L.countBlock, L.errorBlock, L.rowBlock, L.inputArray] ++ L.older) := hL.blocks
    have hfits : 8 * (s.column * L.capacity) + 8 * s.row + s.bytes.length ≤
        L.mirrorBlock.bytes.length := by
      simp only [mirrorBlock]
      omega
    obtain ⟨h', hpoke, hblocks⟩ := Heap.poke_advance (a := L.storage) _ hsplit rfl hfits
    refine ⟨h', ?_, ⟨?_, ?_, hL.error⟩⟩
    · rw [KernelParams.store, if_pos (by simp [shape, hcolumn, hrow, hlen]),
        hL.column_entry hcolumn]
      change h.poke _ _ = _
      rw [hadvance, hpoke]
    · rw [hblocks, storeBytes, if_pos ⟨hcolumn, hrow, hlen⟩]
      rfl
    · rw [length_storeBytes]
      exact hL.room
  · refine ⟨h, ?_, ?_⟩
    · rw [KernelParams.store, if_neg]
      rw [Bool.and_eq_true, Bool.and_eq_true, decide_eq_true_iff, decide_eq_true_iff,
        decide_eq_true_iff]
      exact fun hall => hadmits ⟨hall.1.1, hall.1.2, hall.2⟩
    · rw [storeBytes, if_neg hadmits]
      exact hL

theorem storeAll (hL : L.Holds h) (inputSizes : List ℕ) (stores : List Store) :
    ∃ h', L.params.storeAll (L.shape inputSizes) stores h = .ok h' ∧
      { L with mirror := stores.foldl (storeBytes L.columns L.capacity) L.mirror }.Holds h' := by
  induction stores generalizing L h with
  | nil => exact ⟨h, rfl, hL⟩
  | cons s rest ih =>
    obtain ⟨h₁, hfirst, hL₁⟩ := hL.store inputSizes s
    obtain ⟨h₂, hrest, hL₂⟩ := ih hL₁
    refine ⟨h₂, ?_, hL₂⟩
    rw [KernelParams.storeAll, hfirst]
    exact hrest

theorem setCount (hL : L.Holds h) (count : Word) :
    ∃ h', h.poke L.params.countCell count.bytes = .ok h' ∧ { L with count }.Holds h' := by
  have hsplit : h.blocks = [L.columnArray, L.mirrorBlock] ++ L.countBlock ::
      ([L.errorBlock, L.rowBlock, L.inputArray] ++ L.older) := hL.blocks
  have hfits : 0 + count.bytes.length ≤ L.countBlock.bytes.length := by
    simp only [countBlock, Word.length_bytes, le_refl]
  obtain ⟨h', hpoke, hblocks⟩ := Heap.poke_advance (a := L.params.countCell) 0 hsplit rfl hfits
  rw [Address.advance_zero] at hpoke
  have hwritten : overwrite L.count.bytes 0 count.bytes = count.bytes := by
    rw [overwrite, if_pos (by simp), List.take_zero, List.nil_append,
      List.drop_of_length_le (by simp), List.append_nil]
  refine ⟨h', hpoke, ⟨?_, hL.room, hL.error⟩⟩
  rw [hblocks]
  simp only [countBlock, hwritten]
  rfl

theorem setError (hL : L.Holds h) (code : BitVec 32) :
    ∃ h' error, h.poke L.params.errorCell (bytesOf 4 code) = .ok h' ∧
      { L with error }.Holds h' := by
  have hsplit : h.blocks = [L.columnArray, L.mirrorBlock, L.countBlock] ++ L.errorBlock ::
      ([L.rowBlock, L.inputArray] ++ L.older) := hL.blocks
  have hfits : 0 + (bytesOf 4 code).length ≤ L.errorBlock.bytes.length := by
    simp only [errorBlock, hL.error, length_bytesOf, slotBytes]
    omega
  obtain ⟨h', hpoke, hblocks⟩ := Heap.poke_advance (a := L.params.errorCell) 0 hsplit rfl hfits
  rw [Address.advance_zero] at hpoke
  exact ⟨h', overwrite L.error 0 (bytesOf 4 code), hpoke,
    ⟨hblocks, hL.room, by rw [length_overwrite, hL.error]⟩⟩

theorem reportError (hL : L.Holds h) (code? : Option (BitVec 32)) :
    ∃ h' error, (match code? with
        | some code => h.poke L.params.errorCell (bytesOf 4 code)
        | none => .ok h) = .ok h' ∧ { L with error }.Holds h' := by
  cases code? with
  | none => exact ⟨h, L.error, rfl, hL⟩
  | some code => exact hL.setError code

/-- The kernel stores into the mirror, and sets its row count cell if it reports a count. -/
theorem apply (hL : L.Holds h) (inputSizes : List ℕ) (effect : KernelEffect) :
    ∃ h' error, L.params.apply (L.shape inputSizes) h effect = .ok h' ∧
      { L with
        mirror := effect.stores.foldl (storeBytes L.columns L.capacity) L.mirror
        count := effect.count.getD L.count
        error }.Holds h' := by
  obtain ⟨h₁, hstores, hL₁⟩ := hL.storeAll inputSizes effect.stores
  cases hcount : effect.count with
  | none =>
    obtain ⟨h₃, error, hreported, hL₃⟩ := hL₁.reportError effect.errorCode
    refine ⟨h₃, error, bind_eq_ok_iff.mpr ⟨h₁, hstores, ?_⟩, hL₃⟩
    rw [hcount]
    exact hreported
  | some count =>
    obtain ⟨h₂, hset, hL₂⟩ := hL₁.setCount count
    obtain ⟨h₃, error, hreported, hL₃⟩ := hL₂.reportError effect.errorCode
    refine ⟨h₃, error, bind_eq_ok_iff.mpr ⟨h₁, hstores, ?_⟩, hL₃⟩
    rw [hcount]
    exact bind_eq_ok_iff.mpr ⟨h₂, hset, hreported⟩

end Holds

end LaunchMemory

end KernelDispatch
