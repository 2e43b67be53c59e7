import KernelDispatch.Bytes

/-!
# Device addresses

An address in device memory is a word, so that an array of buffers is an array of words. Moving an
address wraps around at the end of the address space.
-/

namespace KernelDispatch

def addressSpace : Nat := UInt64.size

structure Address where
  word : Word
deriving DecidableEq, Repr

namespace Address

def ofNat (n : Nat) : Address := ⟨BitVec.ofNat 64 n⟩

variable (a : Address)

def value : Nat := a.word.toNat

def null : Address := ⟨0⟩

def isNull : Bool := a.word == 0

/-- The address some bytes further on. -/
def advance (offset : Nat) : Address := ⟨a.word + BitVec.ofNat 64 offset⟩

def text : String := "0x" ++ hexNumber a.value

theorem value_ofNat {n : Nat} (h : n < addressSpace) : (ofNat n).value = n := by
  rw [value, ofNat, BitVec.toNat_ofNat]
  exact Nat.mod_eq_of_lt h

theorem value_advance {offset : Nat} (h : a.value + offset < addressSpace) :
    (a.advance offset).value = a.value + offset := by
  have offset_lt : offset < addressSpace := by omega
  rw [value, advance, BitVec.toNat_add, BitVec.toNat_ofNat]
  change (a.value + offset % addressSpace) % addressSpace = a.value + offset
  rw [Nat.mod_eq_of_lt offset_lt, Nat.mod_eq_of_lt h]

@[simp] theorem advance_zero : a.advance 0 = a := by simp [advance]

end Address

end KernelDispatch
