import KernelDispatch.Machine
import Mathlib

/-!
# Reading and writing live blocks

Live blocks never touch, so a stretch that lies within one of them lies within no other. A read
through an address inside a block therefore shows that block, a write changes that block only, and
what was known of the other blocks stays known. An allocation adds one block in front of those that
are there.
-/

namespace KernelDispatch

def zeroFilled (n : ℕ) (src : Bytes) : Bytes := src ++ List.replicate (n - src.length) 0

theorem length_zeroFilled {n : ℕ} {src : Bytes} (h : src.length ≤ n) :
    (zeroFilled n src).length = n := by
  rw [zeroFilled, List.length_append, List.length_replicate]
  omega

theorem zeroFilled_of_length {n : ℕ} {src : Bytes} (h : src.length = n) :
    zeroFilled n src = src := by
  rw [zeroFilled, h, Nat.sub_self, List.replicate_zero, List.append_nil]

theorem zeroFilled_zeros {k n : ℕ} (h : k ≤ n) :
    zeroFilled n (List.replicate k 0) = List.replicate n 0 := by
  rw [zeroFilled, List.length_replicate, List.replicate_append_replicate, Nat.add_sub_cancel' h]

theorem slice_zero (bs : Bytes) (len : ℕ) : slice bs 0 len = bs.take len := by
  rw [slice, List.drop_zero]

theorem overwrite_zeros {n : ℕ} {src : Bytes} (h : src.length ≤ n) :
    overwrite (List.replicate n 0) 0 src = zeroFilled n src := by
  rw [overwrite, if_pos (by rw [List.length_replicate]; omega), List.take_zero, List.nil_append,
    List.drop_replicate, Nat.zero_add, zeroFilled]

namespace Block

variable {b c : Block}

theorem holds_iff {address len : ℕ} :
    b.holds address len = true ↔ b.base ≤ address ∧ address + len ≤ b.base + b.bytes.length := by
  rw [holds, Bool.and_eq_true, decide_eq_true_iff, decide_eq_true_iff, stop]

theorem not_holds_of_limit_le {address m n : ℕ} (h : b.limit ≤ c.base)
    (hb : b.holds address m = true) : ¬c.holds address n = true := by
  intro hc
  rw [holds_iff] at hb hc
  have hstop := b.stop_lt_limit
  rw [stop] at hstop
  omega

end Block

namespace Heap

variable {h h' : Heap} {b c : Block} {a : Address} {visible : Block → Bool} {off len : ℕ}

theorem ext_blocks (hblocks : h.blocks = h'.blocks) : h = h' := by
  cases h
  cases h'
  cases hblocks
  rfl

/-- Live blocks that hold a stretch at one address are one block. -/
theorem eq_of_holds {address m n : ℕ} (hb : b ∈ h.blocks) (hc : c ∈ h.blocks)
    (hholds : b.holds address m = true) (hholds' : c.holds address n = true) : b = c := by
  by_contra hne
  have hapart : h.blocks.Pairwise fun x y => x.limit ≤ y.base ∨ y.limit ≤ x.base :=
    h.sorted.imp fun hle => Or.inr hle
  have : Std.Symm fun x y : Block => x.limit ≤ y.base ∨ y.limit ≤ x.base := ⟨fun _ _ => Or.symm⟩
  rcases hapart.forall hb hc hne with hle | hle
  · exact Block.not_holds_of_limit_le hle hholds hholds'
  · exact Block.not_holds_of_limit_le hle hholds' hholds

theorem load?_of_mem (hb : b ∈ h.blocks) (hvisible : visible b = true)
    (hholds : b.holds a.value len = true) :
    h.load? visible a len = some (b.read a.value len) := by
  unfold load?
  cases hfind : h.blocks.find? fun b => visible b && b.holds a.value len with
  | none =>
    rw [List.find?_eq_none] at hfind
    exact absurd (hfind b hb) (by rw [hvisible, hholds]; decide)
  | some c =>
    have hmem := List.mem_of_find?_eq_some hfind
    have hfound := List.find?_some hfind
    rw [Bool.and_eq_true] at hfound
    rw [eq_of_holds hb hmem hholds hfound.2]
    rfl

theorem value_advance_of_mem (hb : b ∈ h.blocks) (ha : b.base = a.value)
    (hoff : off ≤ b.bytes.length) : (a.advance off).value = b.base + off := by
  have hstop := b.stop_lt_limit
  have hspace := h.inSpace b hb
  rw [Block.stop] at hstop
  rw [Address.value_advance _ (by omega), ha]

theorem holds_advance (hb : b ∈ h.blocks) (ha : b.base = a.value)
    (hlen : off + len ≤ b.bytes.length) : b.holds (a.advance off).value len = true := by
  rw [Block.holds_iff, value_advance_of_mem hb ha (by omega)]
  omega

theorem load?_advance (off : ℕ) (hb : b ∈ h.blocks) (hvisible : visible b = true)
    (ha : b.base = a.value) (hlen : off + len ≤ b.bytes.length) :
    h.load? visible (a.advance off) len = some (slice b.bytes off len) := by
  rw [load?_of_mem hb hvisible (holds_advance hb ha hlen), Block.read,
    value_advance_of_mem hb ha (by omega), Nat.add_sub_cancel_left]

theorem peek_advance (off : ℕ) (hb : b ∈ h.blocks) (ha : b.base = a.value)
    (hlen : off + len ≤ b.bytes.length) :
    h.peek (a.advance off) len = .ok (slice b.bytes off len) := by
  rw [peek, load?_advance off hb rfl ha hlen]

theorem peek_base (hb : b ∈ h.blocks) (ha : b.base = a.value) (hlen : len ≤ b.bytes.length) :
    h.peek a len = .ok (b.bytes.take len) := by
  have hread := peek_advance 0 hb ha (by omega : 0 + len ≤ b.bytes.length)
  rwa [Address.advance_zero, slice_zero] at hread

theorem copyFrom_advance {d : Device} (off : ℕ) (hb : b ∈ h.blocks) (howner : b.owner = d.slot)
    (ha : b.base = a.value) (hlen : off + len ≤ b.bytes.length) :
    h.copyFrom d (a.advance off) len = .ok (slice b.bytes off len) := by
  rw [copyFrom, load?_advance off hb (by simpa using howner) ha hlen]

theorem copyFrom_base {d : Device} (hb : b ∈ h.blocks) (howner : b.owner = d.slot)
    (ha : b.base = a.value) (hlen : len ≤ b.bytes.length) :
    h.copyFrom d a len = .ok (b.bytes.take len) := by
  have hread := copyFrom_advance 0 hb howner ha (by omega : 0 + len ≤ b.bytes.length)
  rwa [Address.advance_zero, slice_zero] at hread

theorem map_writeIn_eq_self {blocks : List Block} {src : Bytes}
    (hnone : ∀ c ∈ blocks, ¬c.holds a.value src.length = true) :
    blocks.map (writeIn visible a src) = blocks := by
  calc blocks.map (writeIn visible a src) = blocks.map id := by
        apply List.map_congr_left
        intro c hc
        rw [writeIn, if_neg (by rw [Bool.and_eq_true]; exact fun hboth => hnone c hc hboth.2)]
        rfl
    _ = blocks := List.map_id _

theorem store?_advance {newer older : List Block} {src : Bytes} (visible : Block → Bool) (off : ℕ)
    (hsplit : h.blocks = newer ++ b :: older) (hvisible : visible b = true)
    (ha : b.base = a.value) (hlen : off + src.length ≤ b.bytes.length) :
    ∃ h', h.store? visible (a.advance off) src = some h' ∧
      h'.blocks = newer ++ { b with bytes := overwrite b.bytes off src } :: older := by
  have hb : b ∈ h.blocks := by rw [hsplit]; exact List.mem_append_right _ List.mem_cons_self
  have hholds := holds_advance hb ha hlen
  have hsorted := h.sorted
  rw [hsplit, List.pairwise_append, List.pairwise_cons] at hsorted
  obtain ⟨-, ⟨holder, -⟩, hnewer⟩ := hsorted
  have hany : (h.blocks.any fun b => visible b && b.holds (a.advance off).value src.length) =
      true :=
    List.any_eq_true.mpr ⟨b, hb, by rw [hvisible, hholds]; rfl⟩
  refine ⟨_, if_pos hany, ?_⟩
  have hwrite : writeIn visible (a.advance off) src b =
      { b with bytes := overwrite b.bytes off src } := by
    rw [writeIn, if_pos (by rw [hvisible, hholds]; rfl), Block.write,
      value_advance_of_mem hb ha (by omega), Nat.add_sub_cancel_left]
  change h.blocks.map (writeIn visible (a.advance off) src) = _
  rw [hsplit, List.map_append, List.map_cons, hwrite, map_writeIn_eq_self, map_writeIn_eq_self]
  · intro c hc hholds'
    exact Block.not_holds_of_limit_le (holder c hc) hholds' hholds
  · intro c hc
    exact Block.not_holds_of_limit_le (hnewer c hc b List.mem_cons_self) hholds

theorem poke_advance {newer older : List Block} {src : Bytes} (off : ℕ)
    (hsplit : h.blocks = newer ++ b :: older) (ha : b.base = a.value)
    (hlen : off + src.length ≤ b.bytes.length) :
    ∃ h', h.poke (a.advance off) src = .ok h' ∧
      h'.blocks = newer ++ { b with bytes := overwrite b.bytes off src } :: older := by
  obtain ⟨h', hstore, hblocks⟩ := store?_advance (fun _ => true) off hsplit rfl ha hlen
  exact ⟨h', by rw [poke, hstore], hblocks⟩

theorem copyTo_advance {newer older : List Block} {src : Bytes} {d : Device} (off : ℕ)
    (hsplit : h.blocks = newer ++ b :: older) (howner : b.owner = d.slot) (ha : b.base = a.value)
    (hlen : off + src.length ≤ b.bytes.length) :
    ∃ h', h.copyTo d (a.advance off) src = .ok h' ∧
      h'.blocks = newer ++ { b with bytes := overwrite b.bytes off src } :: older := by
  obtain ⟨h', hstore, hblocks⟩ := store?_advance (·.owner == d.slot) off hsplit
    (by simpa using howner) ha hlen
  exact ⟨h', by rw [copyTo, hstore], hblocks⟩

theorem spanOf_pos (n : ℕ) : 0 < spanOf n := by
  unfold spanOf
  omega

theorem blocks_alloc {d : Device} {n : ℕ} (halloc : h.alloc d n = .ok (a, h')) :
    h'.blocks = ⟨d.slot, a.value, List.replicate n 0⟩ :: h.blocks := by
  obtain ⟨-, hroom, rfl, rfl⟩ := h.alloc_eq_ok_iff.mp halloc
  rw [blocks_push, Address.value_ofNat]
  have hspan := spanOf_pos n
  omega

theorem top_pos (h : Heap) : 0 < h.top := by
  unfold top
  split
  · decide
  · exact Nat.add_pos_right _ (spanOf_pos _)

/-- No allocation is at the address of nothing, whatever was allocated and freed before. -/
theorem alloc_not_null {d : Device} {n : ℕ} (halloc : h.alloc d n = .ok (a, h')) :
    a.isNull = false := by
  obtain ⟨-, hroom, rfl, -⟩ := h.alloc_eq_ok_iff.mp halloc
  have hspan := spanOf_pos n
  have htop := h.top_pos
  have hvalue : (Address.ofNat h.top).value = h.top := Address.value_ofNat (by omega)
  rw [Address.isNull, beq_eq_false_iff_ne]
  intro hnull
  rw [Address.value, hnull] at hvalue
  exact absurd hvalue htop.ne

theorem alloc_eq_error {d : Device} {n : ℕ} {e : Failure} (halloc : h.alloc d n = .error e) :
    e = .outOfDeviceMemory d.id n := by
  unfold alloc at halloc
  split_ifs at halloc
  · exact (Except.error.inj halloc).symm
  · exact (Except.error.inj halloc).symm

theorem copyTo_base {older : List Block} {src : Bytes} {d : Device}
    (hsplit : h.blocks = b :: older) (howner : b.owner = d.slot) (ha : b.base = a.value)
    (hlen : src.length ≤ b.bytes.length) :
    ∃ h', h.copyTo d a src = .ok h' ∧
      h'.blocks = { b with bytes := overwrite b.bytes 0 src } :: older := by
  rw [← List.nil_append (b :: older)] at hsplit
  have hwrite := copyTo_advance 0 hsplit howner ha (by omega : 0 + src.length ≤ b.bytes.length)
  rwa [Address.advance_zero] at hwrite

theorem base_ne_of_newer {newer older : List Block} (hsplit : h.blocks = newer ++ older)
    (hb : b ∈ newer) (hc : c ∈ older) : b.base ≠ c.base := by
  have hsorted := h.sorted
  rw [hsplit, List.pairwise_append] at hsorted
  have hle := hsorted.2.2 b hb c hc
  have hstop := c.stop_lt_limit
  rw [Block.stop] at hstop
  omega

end Heap

end KernelDispatch
