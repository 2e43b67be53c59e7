import KernelDispatch.Proofs.Device.Blocks

/-!
# A device as a map that is searched in any order

A device keeps its live allocations in a map. An access visits them one after another, in whatever
order the map has at that time, and goes to the first that holds the whole stretch. Fresh memory is
found anywhere apart from the memory of the live allocations. What such a device answers is compared
with a history of its operations: which allocations are live, and which byte was last written where.
-/

namespace KernelDispatch

inductive DeviceStep
  | alloc (numBytes : ℕ)
  | free (a : Address)
  | copyTo (a : Address) (src : Bytes)
  | copyFrom (a : Address) (len : ℕ)

inductive DeviceAnswer
  | address (a : Address)
  | done
  | bytes (bs : Bytes)
deriving DecidableEq

abbrev DeviceEvent := DeviceStep × Except Failure DeviceAnswer

/-- Bytes of memory behind an allocation of `n` bytes: whole words, at least one. -/
def backing (n : ℕ) : ℕ := 8 * max 1 (slotsFor n)

theorem le_backing (n : ℕ) : n ≤ backing n := by
  unfold backing slotsFor
  omega

theorem backing_pos (n : ℕ) : 0 < backing n := by
  unfold backing
  omega

/-- The first block that holds a stretch, with all blocks after `f` was done to that one. -/
def visit (address len : ℕ) (f : Block → Block) : List Block → Option (Block × List Block)
  | [] => none
  | b :: rest =>
    if b.holds address len then some (b, f b :: rest)
    else (visit address len f rest).map fun found => (found.1, b :: found.2)

/-- The block with `src` put over the bytes at its addresses, as far as it has them. -/
def Block.patched (address : ℕ) (src : Bytes) (b : Block) : Block :=
  { b with bytes := b.bytes.mapIdx fun i byte =>
      if address ≤ b.base + i then (src[b.base + i - address]?).getD byte else byte }

/-- Memory for `n` bytes at `a` is apart from that of all blocks. -/
def Placed (blocks : List Block) (n : ℕ) (a : Address) : Prop :=
  a.value + backing n ≤ addressSpace ∧
    ∀ b ∈ blocks, a.value + backing n ≤ b.base ∨ b.base + backing b.bytes.length ≤ a.value

namespace Device

variable (d : Device)

/-- One operation on a device whose map lists its allocations as `order`. Fresh memory is found at
`place`, if there is any. -/
def serve (place : Option Address) (order : List Block) :
    DeviceStep → Except Failure DeviceAnswer × List Block
  | .alloc n =>
    match place with
    | some a =>
      if d.maxLive.all (order.length < ·) then
        (.ok (.address a), ⟨d.slot, a.value, List.replicate n 0⟩ :: order)
      else (.error (.outOfDeviceMemory d.id n), order)
    | none => (.error (.outOfDeviceMemory d.id n), order)
  | .free a => (.ok .done, order.filter (·.base != a.value))
  | .copyTo a src =>
    match visit a.value src.length (·.write a.value src) order with
    | some (_, after) => (.ok .done, after)
    | none => (.error (.accessOutsideAllocations a src.length), order)
  | .copyFrom a len =>
    match visit a.value len (fun b => b) order with
    | some (b, after) => (.ok (.bytes (b.read a.value len)), after)
    | none => (.error (.accessOutsideAllocations a len), order)

/-- A device after operations, the newest first: each listed the map in some order and placed fresh
memory apart from the live allocations. -/
inductive Reached (d : Device) : List DeviceEvent → List Block → Prop
  | start : Reached d [] []
  | step {history : List DeviceEvent} {blocks order : List Block} {place : Option Address}
      {s : DeviceStep} (h : Reached d history blocks) (horder : order.Perm blocks)
      (hplace : ∀ n a, s = .alloc n → place = some a → Placed order n a) :
      Reached d ((s, (d.serve place order s).1) :: history) (d.serve place order s).2

end Device

/-- Allocations, by address and requested size, whose memory is apart. -/
def Apart (r r' : ℕ × ℕ) : Prop := r.1 + backing r.2 ≤ r'.1 ∨ r'.1 + backing r'.2 ≤ r.1

def Block.place (b : Block) : ℕ × ℕ := (b.base, b.bytes.length)

namespace DeviceHistory

/-- Address and requested size of the live allocations, after operations the newest of which comes
first. -/
def live : List DeviceEvent → List (ℕ × ℕ)
  | [] => []
  | (.alloc n, .ok (.address a)) :: earlier => (a.value, n) :: live earlier
  | (.free a, _) :: earlier => (live earlier).filter (·.1 != a.value)
  | _ :: earlier => live earlier

/-- The byte last written at an address since memory was allocated there, or zero. -/
def byteAt : List DeviceEvent → ℕ → UInt8
  | [], _ => 0
  | (.alloc n, .ok (.address a)) :: earlier, x =>
    if a.value ≤ x ∧ x < a.value + n then 0 else byteAt earlier x
  | (.copyTo a src, .ok _) :: earlier, x =>
    if a.value ≤ x then (src[x - a.value]?).getD (byteAt earlier x) else byteAt earlier x
  | _ :: earlier, x => byteAt earlier x

def bytesAt (history : List DeviceEvent) (address len : ℕ) : Bytes :=
  (List.range len).map fun i => byteAt history (address + i)

/-- The stretch lies within the requested bytes of one live allocation. -/
def Covers (history : List DeviceEvent) (address len : ℕ) : Prop :=
  ∃ r ∈ live history, r.1 ≤ address ∧ address + len ≤ r.1 + r.2

instance (history : List DeviceEvent) (address len : ℕ) : Decidable (Covers history address len) :=
  inferInstanceAs (Decidable (∃ r ∈ live history, r.1 ≤ address ∧ address + len ≤ r.1 + r.2))

def arrayOf (d : Device) (history : List DeviceEvent) (r : ℕ × ℕ) : Block :=
  ⟨d.slot, r.1, bytesAt history r.1 r.2⟩

def arrays (d : Device) (history : List DeviceEvent) : List Block :=
  (live history).map (arrayOf d history)

variable {history : List DeviceEvent}

@[simp] theorem length_bytesAt (address len : ℕ) : (bytesAt history address len).length = len := by
  simp [bytesAt]

theorem getElem?_bytesAt {address len i : ℕ} (h : i < len) :
    (bytesAt history address len)[i]? = some (byteAt history (address + i)) := by
  simp [bytesAt, h]

end DeviceHistory

section Visit

variable {r r' : ℕ × ℕ}

theorem Apart.symm (h : Apart r r') : Apart r' r := Or.symm h

theorem Apart.base_ne (h : Apart r r') : r.1 ≠ r'.1 := by
  have hpos := backing_pos r.2
  have hpos' := backing_pos r'.2
  unfold Apart at h
  omega

theorem Apart.not_mem {x : ℕ} (h : Apart r r') (hx : r.1 ≤ x) (hx' : x < r.1 + r.2) :
    ¬(r'.1 ≤ x ∧ x < r'.1 + r'.2) := by
  have hle := le_backing r.2
  have hle' := le_backing r'.2
  unfold Apart at h
  omega

variable {address len : ℕ} {f : Block → Block} {order after : List Block} {b c : Block}
    {src : Bytes}

theorem visit_some (h : visit address len f order = some (b, after)) :
    b ∈ order ∧ b.holds address len = true := by
  induction order generalizing after with
  | nil => cases h
  | cons c rest ih =>
    rw [visit] at h
    split_ifs at h with hholds
    · cases h
      exact ⟨List.mem_cons_self, hholds⟩
    · obtain ⟨⟨b', after'⟩, hrest, heq⟩ := Option.map_eq_some_iff.mp h
      cases heq
      obtain ⟨hmem, hb⟩ := ih hrest
      exact ⟨List.mem_cons_of_mem c hmem, hb⟩

theorem visit_eq_none_iff :
    visit address len f order = none ↔ ∀ c ∈ order, ¬c.holds address len = true := by
  induction order with
  | nil => simp [visit]
  | cons c rest ih =>
    by_cases hholds : c.holds address len = true
    · simp [visit, hholds]
    · simp [visit, hholds, ih]

theorem visit_unchanged (h : visit address len (fun b => b) order = some (b, after)) :
    after = order := by
  induction order generalizing after with
  | nil => cases h
  | cons c rest ih =>
    rw [visit] at h
    split_ifs at h with hholds
    · cases h
      rfl
    · obtain ⟨⟨b', after'⟩, hrest, heq⟩ := Option.map_eq_some_iff.mp h
      cases heq
      rw [ih hrest]

theorem getElem?_patched (i : ℕ) :
    (b.patched address src).bytes[i]? = b.bytes[i]?.map fun byte =>
      if address ≤ b.base + i then (src[b.base + i - address]?).getD byte else byte :=
  List.getElem?_mapIdx

theorem patched_of_outside
    (h : ∀ i < b.bytes.length, b.base + i < address ∨ address + src.length ≤ b.base + i) :
    b.patched address src = b := by
  have hbytes : (b.patched address src).bytes = b.bytes := by
    apply List.ext_getElem?
    intro i
    rw [getElem?_patched]
    cases hbyte : b.bytes[i]? with
    | none => rfl
    | some byte =>
      obtain ⟨hi, -⟩ := List.getElem?_eq_some_iff.mp hbyte
      rw [Option.map_some]
      rcases h i hi with hbelow | habove
      · rw [if_neg (by omega)]
      · rw [List.getElem?_eq_none (by omega), Option.getD_none, ite_self]
  change { b with bytes := (b.patched address src).bytes } = b
  rw [hbytes]

theorem patched_of_holds (h : b.holds address src.length = true) :
    b.patched address src = b.write address src := by
  rw [Block.holds_iff] at h
  have hbytes : (b.patched address src).bytes = overwrite b.bytes (address - b.base) src := by
    apply List.ext_getElem?
    intro i
    rw [getElem?_patched]
    by_cases hinside : address ≤ b.base + i ∧ b.base + i < address + src.length
    · have hi : i < b.bytes.length := by omega
      rw [getElem?_overwrite_of_inside (by omega) (by omega) (by omega),
        List.getElem?_eq_getElem hi, Option.map_some, if_pos hinside.1,
        show b.base + i - address = i - (address - b.base) by omega,
        List.getElem?_eq_getElem (by omega), Option.getD_some]
    · rw [getElem?_overwrite_of_outside (by omega)]
      cases b.bytes[i]? with
      | none => rfl
      | some byte =>
        rw [Option.map_some]
        split_ifs with hle
        · rw [List.getElem?_eq_none (by omega), Option.getD_none]
        · rfl
  change { b with bytes := (b.patched address src).bytes } = b.write address src
  rw [hbytes]
  rfl

/-- A block that is apart from one that has all of the addresses stays as it is. -/
theorem patched_of_apart (hapart : Apart b.place c.place) (h : b.holds address src.length = true) :
    c.patched address src = c := by
  rw [Block.holds_iff] at h
  refine patched_of_outside fun i hi => ?_
  by_contra hinside
  have hnot := hapart.not_mem (x := c.base + i) (by simp only [Block.place]; omega)
    (by simp only [Block.place]; omega)
  simp only [Block.place] at hnot
  omega

/-- A write changes the bytes at its addresses and no others, in whichever block it is made. Blocks
that touch may both hold an empty stretch; then nothing is changed in either. -/
theorem visit_write (hapart : order.Pairwise fun b c => Apart b.place c.place)
    (h : visit address src.length (·.write address src) order = some (b, after)) :
    after = order.map (·.patched address src) := by
  induction order generalizing after with
  | nil => cases h
  | cons c rest ih =>
    rw [List.pairwise_cons] at hapart
    rw [visit] at h
    split_ifs at h with hholds
    · cases h
      have hrest : rest.map (·.patched address src) = rest := by
        calc rest.map (·.patched address src) = rest.map id :=
              List.map_congr_left fun c' hc' => patched_of_apart (hapart.1 c' hc') hholds
          _ = rest := List.map_id rest
      rw [List.map_cons, patched_of_holds hholds, hrest]
    · obtain ⟨⟨b', after'⟩, hvisit, heq⟩ := Option.map_eq_some_iff.mp h
      cases heq
      obtain ⟨hmem, hheld⟩ := visit_some hvisit
      rw [List.map_cons, patched_of_apart (hapart.1 _ hmem).symm hheld, ih hapart.2 hvisit]

end Visit

namespace DeviceHistory

variable {d : Device} {history later : List DeviceEvent} {blocks order after : List Block}
  {b c : Block} {a : Address} {n len : ℕ} {src : Bytes}

@[simp] theorem place_arrayOf (r : ℕ × ℕ) : (arrayOf d history r).place = r := by
  simp [Block.place, arrayOf]

theorem mem_arrays : b ∈ arrays d history ↔ ∃ r ∈ live history, arrayOf d history r = b :=
  List.mem_map

theorem map_place_arrays : (arrays d history).map Block.place = live history := by
  rw [arrays, List.map_map]
  calc (live history).map (Block.place ∘ arrayOf d history) = (live history).map id :=
        List.map_congr_left fun r _ => place_arrayOf r
    _ = live history := List.map_id _

/-- The live allocations of a history are apart, and the blocks are their arrays. -/
structure Tracks (d : Device) (history : List DeviceEvent) (blocks : List Block) : Prop where
  arrays : blocks.Perm (arrays d history)
  apart : (live history).Pairwise Apart

namespace Tracks

theorem perm (h : Tracks d history blocks) (horder : order.Perm blocks) : Tracks d history order :=
  ⟨horder.trans h.arrays, h.apart⟩

theorem place_mem (h : Tracks d history blocks) (hb : b ∈ blocks) : b.place ∈ live history := by
  obtain ⟨r, hr, rfl⟩ := mem_arrays.mp (h.arrays.mem_iff.mp hb)
  rwa [place_arrayOf]

theorem bytes_eq (h : Tracks d history blocks) (hb : b ∈ blocks) :
    b.bytes = bytesAt history b.base b.bytes.length := by
  obtain ⟨r, -, rfl⟩ := mem_arrays.mp (h.arrays.mem_iff.mp hb)
  simp [arrayOf]

theorem arrayOf_mem {r : ℕ × ℕ} (h : Tracks d history blocks) (hr : r ∈ live history) :
    arrayOf d history r ∈ blocks :=
  h.arrays.mem_iff.mpr (mem_arrays.mpr ⟨r, hr, rfl⟩)

theorem pairwise (h : Tracks d history blocks) :
    blocks.Pairwise fun b c => Apart b.place c.place := by
  have hlive := h.apart
  rw [← map_place_arrays (d := d), List.pairwise_map] at hlive
  exact (h.arrays.pairwise_iff fun hapart => hapart.symm).mpr hlive

theorem holds_iff_covers {address : ℕ} (h : Tracks d history blocks) :
    (∃ b ∈ blocks, b.holds address len = true) ↔ Covers history address len := by
  constructor
  · rintro ⟨b, hb, hholds⟩
    exact ⟨b.place, h.place_mem hb, Block.holds_iff.mp hholds⟩
  · rintro ⟨r, hr, hcovers⟩
    refine ⟨_, h.arrayOf_mem hr, Block.holds_iff.mpr ?_⟩
    simpa [arrayOf] using hcovers

/-- A block that holds a stretch has the bytes that were last written there. -/
theorem read_eq {address : ℕ} (h : Tracks d history blocks) (hb : b ∈ blocks)
    (hholds : b.holds address len = true) : b.read address len = bytesAt history address len := by
  rw [Block.holds_iff] at hholds
  rw [Block.read, h.bytes_eq hb]
  apply List.ext_getElem?
  intro i
  simp only [slice]
  by_cases hi : i < len
  · rw [List.getElem?_take_of_lt hi, List.getElem?_drop, getElem?_bytesAt (by omega),
      getElem?_bytesAt hi]
    congr 2
    omega
  · rw [List.getElem?_eq_none (by simp; omega), List.getElem?_eq_none (by simp; omega)]

end Tracks

section Steps

theorem arrays_congr (hlive : live later = live history)
    (hbytes : ∀ x, byteAt later x = byteAt history x) : arrays d later = arrays d history := by
  have harray : arrayOf d later = arrayOf d history := by
    funext r
    simp [arrayOf, bytesAt, hbytes]
  rw [arrays, hlive, harray, arrays]

theorem arrays_alloc (hapart : ∀ r ∈ live history, Apart (a.value, n) r) :
    arrays d ((.alloc n, .ok (.address a)) :: history) =
      ⟨d.slot, a.value, List.replicate n 0⟩ :: arrays d history := by
  rw [arrays, live, List.map_cons]
  congr 1
  · rw [arrayOf, bytesAt]
    congr 1
    rw [List.eq_replicate_iff]
    refine ⟨by simp, ?_⟩
    intro x hx
    obtain ⟨i, hi, rfl⟩ := List.mem_map.mp hx
    rw [List.mem_range] at hi
    exact if_pos ⟨by omega, by omega⟩
  · apply List.map_congr_left
    intro r hr
    simp only [arrayOf, bytesAt]
    congr 1
    apply List.map_congr_left
    intro i hi
    rw [List.mem_range] at hi
    exact if_neg ((hapart r hr).symm.not_mem (by omega) (by omega))

theorem arrays_free {answer : Except Failure DeviceAnswer} :
    arrays d ((.free a, answer) :: history) = (arrays d history).filter (·.base != a.value) := by
  have harray : arrayOf d ((.free a, answer) :: history) = arrayOf d history := by
    funext r
    simp [arrayOf, bytesAt, byteAt]
  rw [arrays, live, harray, arrays, List.filter_map]
  rfl

theorem arrays_copyTo {answer : DeviceAnswer} :
    arrays d ((.copyTo a src, .ok answer) :: history) =
      (arrays d history).map (·.patched a.value src) := by
  change (live history).map (arrayOf d ((.copyTo a src, .ok answer) :: history)) = _
  rw [arrays, List.map_map]
  apply List.map_congr_left
  intro r _
  rw [Function.comp_apply, arrayOf, arrayOf, Block.patched]
  congr 1
  apply List.ext_getElem?
  intro i
  by_cases hi : i < r.2
  · rw [List.getElem?_mapIdx, getElem?_bytesAt hi, getElem?_bytesAt hi]
    rfl
  · rw [List.getElem?_eq_none (by simp; omega), List.getElem?_eq_none (by simp; omega)]

end Steps

end DeviceHistory

end KernelDispatch
