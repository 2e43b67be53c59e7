import KernelDispatch.Failure

/-!
# Device memory

The memory of all devices is one address space. A live allocation is a block that belongs to one
device; an access is granted iff it lies within the requested bytes of one block. Fresh blocks are
placed above every live one with a guard zone between them, so live blocks never touch and their
order in the heap is the order of their addresses. Fresh memory is zero.
-/

namespace KernelDispatch

/-- An installed device. Devices are told apart by their slot, since two may share an id. -/
structure Device where
  slot : Nat
  id : DeviceId
  /-- Allocations that may be live at once. -/
  maxLive : Option Nat := none
  /-- Whether waiting for the device fails. -/
  failsSync : Bool := false
deriving DecidableEq, Repr

def Device.synchronize (d : Device) : Except Failure Unit :=
  if d.failsSync then .error (.synchronizeFailed d.id) else .ok ()

structure Block where
  /-- Slot of the device it belongs to. -/
  owner : Nat
  base : Nat
  /-- The requested bytes. -/
  bytes : Bytes
deriving DecidableEq, Repr

def guardBytes : Nat := UInt16.size

def firstAddress : Nat := UInt32.size

/-- Bytes that an allocation of `n` bytes takes up: whole words, at least one, and the guard
zone. -/
def spanOf (n : Nat) : Nat := 8 * max 1 (slotsFor n) + guardBytes

namespace Block

variable (b : Block)

/-- The end of the requested bytes. -/
def stop : Nat := b.base + b.bytes.length

/-- The first address that another block may use. -/
def limit : Nat := b.base + spanOf b.bytes.length

/-- Whether `len` bytes from `address` lie within the requested bytes. -/
def holds (address len : Nat) : Bool := b.base ≤ address && address + len ≤ b.stop

def read (address len : Nat) : Bytes := slice b.bytes (address - b.base) len

def write (address : Nat) (src : Bytes) : Block :=
  { b with bytes := overwrite b.bytes (address - b.base) src }

@[simp] theorem base_write (address : Nat) (src : Bytes) : (b.write address src).base = b.base :=
  rfl

@[simp] theorem owner_write (address : Nat) (src : Bytes) :
    (b.write address src).owner = b.owner := rfl

@[simp] theorem length_write (address : Nat) (src : Bytes) :
    (b.write address src).bytes.length = b.bytes.length := by simp [write]

@[simp] theorem limit_write (address : Nat) (src : Bytes) :
    (b.write address src).limit = b.limit := by simp [limit]

theorem base_le_limit : b.base ≤ b.limit := by simp [limit]

theorem stop_lt_limit : b.stop < b.limit := by
  have := le_slotsFor_mul b.bytes.length
  simp only [stop, limit, spanOf, guardBytes, UInt16.size]
  omega

end Block

/-- The live blocks of all devices, the newest and highest first. -/
structure Heap where
  blocks : List Block := []
  sorted : blocks.Pairwise fun newer older => older.limit ≤ newer.base := by
    exact List.Pairwise.nil
  inSpace : ∀ b ∈ blocks, b.limit ≤ addressSpace := by exact List.forall_mem_nil _

namespace Heap

variable (h : Heap)

def top : Nat :=
  match h.blocks with
  | [] => firstAddress
  | newest :: _ => newest.limit

theorem limit_le_top {b : Block} (hb : b ∈ h.blocks) : b.limit ≤ h.top := by
  unfold top
  have sorted := h.sorted
  split
  · simp_all
  · rename_i newest rest heq
    rw [heq] at hb sorted
    rcases List.mem_cons.mp hb with rfl | older
    · exact Nat.le_refl _
    · exact Nat.le_trans ((List.pairwise_cons.mp sorted).1 b older) newest.base_le_limit

def blocksOf (d : Device) : List Block := h.blocks.filter (·.owner == d.slot)

def live (d : Device) : Nat := (h.blocksOf d).length

def admits (d : Device) : Bool := d.maxLive.all fun most => h.live d < most

def push (d : Device) (n : Nat) (room : h.top + spanOf n ≤ addressSpace) : Heap where
  blocks := ⟨d.slot, h.top, List.replicate n 0⟩ :: h.blocks
  sorted := List.pairwise_cons.mpr ⟨fun _ hb => h.limit_le_top hb, h.sorted⟩
  inSpace := by
    intro b hb
    rcases List.mem_cons.mp hb with rfl | older
    · simpa [Block.limit] using room
    · exact h.inSpace b older

/-- Allocates `n` bytes on a device. Refused once the device has as many allocations as it may
have, or when the address space is used up. -/
def alloc (d : Device) (n : Nat) : Except Failure (Address × Heap) :=
  if h.admits d then
    if room : h.top + spanOf n ≤ addressSpace then .ok (.ofNat h.top, h.push d n room)
    else .error (.outOfDeviceMemory d.id n)
  else .error (.outOfDeviceMemory d.id n)

/-- Frees the allocation of a device that starts at this address; any other address is ignored. -/
def free (d : Device) (a : Address) : Heap where
  blocks := h.blocks.filter fun b => !(b.owner == d.slot && b.base == a.value)
  sorted := h.sorted.filter _
  inSpace := fun b hb => h.inSpace b (List.mem_filter.mp hb).1

/-- The heap with every block changed in its contents only. -/
def modify (f : Block → Block) (base : ∀ b, (f b).base = b.base)
    (limit : ∀ b, (f b).limit = b.limit) : Heap where
  blocks := h.blocks.map f
  sorted := by
    rw [List.pairwise_map]
    simpa only [base, limit] using h.sorted
  inSpace := by
    intro b hb
    obtain ⟨c, hc, rfl⟩ := List.mem_map.mp hb
    rw [limit]
    exact h.inSpace c hc

/-- The requested bytes of the allocation of a device that starts at this address. -/
def sizeAt? (d : Device) (a : Address) : Option Nat :=
  (h.blocks.find? fun b => b.owner == d.slot && b.base == a.value).map (·.bytes.length)

/-- The bytes of a stretch that lies within one of the visible blocks. -/
def load? (visible : Block → Bool) (a : Address) (len : Nat) : Option Bytes :=
  (h.blocks.find? fun b => visible b && b.holds a.value len).map (·.read a.value len)

/-- Writes a block if it is visible and holds the whole stretch. -/
def writeIn (visible : Block → Bool) (a : Address) (src : Bytes) (b : Block) : Block :=
  if visible b && b.holds a.value src.length then b.write a.value src else b

/-- The heap with a stretch written that lies within one of the visible blocks. -/
def store? (visible : Block → Bool) (a : Address) (src : Bytes) : Option Heap :=
  if h.blocks.any fun b => visible b && b.holds a.value src.length then
    some (h.modify (writeIn visible a src)
      (fun b => by unfold writeIn; split <;> simp)
      (fun b => by unfold writeIn; split <;> simp))
  else none

def copyTo (d : Device) (a : Address) (src : Bytes) : Except Failure Heap :=
  match h.store? (·.owner == d.slot) a src with
  | some h' => .ok h'
  | none => .error (.accessOutsideAllocations a src.length)

def copyFrom (d : Device) (a : Address) (len : Nat) : Except Failure Bytes :=
  match h.load? (·.owner == d.slot) a len with
  | some bs => .ok bs
  | none => .error (.accessOutsideAllocations a len)

/-- A read by a running kernel, which reaches the memory of every device. -/
def peek (a : Address) (len : Nat) : Except Failure Bytes :=
  match h.load? (fun _ => true) a len with
  | some bs => .ok bs
  | none => .error (.accessOutsideAllocations a len)

def poke (a : Address) (src : Bytes) : Except Failure Heap :=
  match h.store? (fun _ => true) a src with
  | some h' => .ok h'
  | none => .error (.accessOutsideAllocations a src.length)

/-- The word at an address, as a running kernel reads it. -/
def peekWord (a : Address) : Except Failure Word := return Word.ofBytes (← h.peek a 8)

@[simp] theorem blocks_push (d : Device) (n : Nat) (room : h.top + spanOf n ≤ addressSpace) :
    (h.push d n room).blocks = ⟨d.slot, h.top, List.replicate n 0⟩ :: h.blocks := rfl

/-- An allocation is granted iff the device may have one more and the address space suffices. -/
theorem alloc_eq_ok_iff {d : Device} {n : Nat} {a : Address} {h' : Heap} :
    h.alloc d n = .ok (a, h') ↔
      h.admits d = true ∧
        ∃ room : h.top + spanOf n ≤ addressSpace, a = .ofNat h.top ∧ h' = h.push d n room := by
  unfold alloc
  by_cases admitted : h.admits d = true
  · by_cases room : h.top + spanOf n ≤ addressSpace
    · simp [admitted, room, eq_comm]
    · simp [admitted, room]
  · simp [admitted]

end Heap

end KernelDispatch
