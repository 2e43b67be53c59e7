import KernelDispatch.Failure

/-!
# Host buffers

Host memory comes in whole words: a buffer is rounded up, and remembers how many bytes were asked
for. Fresh buffers are zero. A single allocation has less than `2 ^ 63` bytes; asking for more ends
the program.
-/

namespace KernelDispatch

structure HostBuffer where
  /-- The bytes that were asked for. -/
  size : Nat
  /-- All bytes, rounded up to whole words. -/
  padded : Bytes
  length_padded : padded.length = 8 * slotsFor size

namespace HostBuffer

/-- A buffer of `size` zero bytes, as far as there can be one. -/
def zeroed (size : Nat) : HostBuffer where
  size := size
  padded := List.replicate (8 * slotsFor size) 0
  length_padded := by simp

def fresh (size : Nat) : Except Failure HostBuffer :=
  if 8 * slotsFor size < Word.signedBound then .ok (zeroed size) else .error .capacityOverflow

variable (b : HostBuffer)

def contents : Bytes := b.padded.take b.size

/-- Bytes reserved for the buffer. -/
def footprint : Nat := 8 * slotsFor b.size

def slotCount : Nat := slotsFor b.size

def slots : List Word := wordsOf b.padded

/-- The buffer with `src` stored from `offset` on, unless it does not fit. -/
def write (offset : Nat) (src : Bytes) : HostBuffer where
  size := b.size
  padded := overwrite b.padded offset src
  length_padded := by rw [length_overwrite, b.length_padded]

theorem fresh_eq_ok_iff {size : Nat} {b : HostBuffer} :
    fresh size = .ok b ↔ 8 * slotsFor size < Word.signedBound ∧ b = zeroed size := by
  by_cases h : 8 * slotsFor size < Word.signedBound <;> simp [fresh, h, eq_comm]

theorem fresh_eq_error_iff {size : Nat} {e : Failure} :
    fresh size = .error e ↔ Word.signedBound ≤ 8 * slotsFor size ∧ e = .capacityOverflow := by
  by_cases h : 8 * slotsFor size < Word.signedBound
  · simp [fresh, h, Nat.not_le_of_lt h]
  · simp [fresh, h, Nat.le_of_not_lt h, eq_comm]

@[simp] theorem size_zeroed (n : Nat) : (zeroed n).size = n := rfl

@[simp] theorem size_write (offset : Nat) (src : Bytes) : (b.write offset src).size = b.size := rfl

@[simp] theorem footprint_write (offset : Nat) (src : Bytes) :
    (b.write offset src).footprint = b.footprint := rfl

@[simp] theorem slotCount_write (offset : Nat) (src : Bytes) :
    (b.write offset src).slotCount = b.slotCount := rfl

@[simp] theorem length_contents : b.contents.length = b.size := by
  have := le_slotsFor_mul b.size
  simp [contents, b.length_padded]
  omega

@[simp] theorem length_slots : b.slots.length = b.slotCount := by
  simp [slots, b.length_padded, slotCount]

end HostBuffer

end KernelDispatch
