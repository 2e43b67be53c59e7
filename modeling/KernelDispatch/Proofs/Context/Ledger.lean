import KernelDispatch.Proofs.Action
import KernelDispatch.Proofs.Device.Blocks
import KernelDispatch.Capacity
import KernelDispatch.Context

/-!
# What a context owns

A ledger ties a scope to the machine that it started from: the blocks that were added are those of
the buffers in the context, in the opposite order, and the bytes in use grew by what these buffers
reserve and by what is owed beside them. Every acquisition keeps the ledger, and dropping the
context of a scope with a ledger restores the machine up to what is owed.
-/

namespace KernelDispatch

/-- A reservation or an allocation that the machine had no room for. -/
def Failure.isRefusal : Failure → Bool
  | .memoryLimitExceeded _ _ _ => true
  | .outOfDeviceMemory _ _ => true
  | _ => false

theorem toNat_add_ofNat {w : Word} {n : ℕ} (h : w.toNat + n < sizeBound) :
    (w + BitVec.ofNat 64 n).toNat = w.toNat + n := by
  rw [BitVec.toNat_add, BitVec.toNat_ofNat, Nat.add_mod_mod]
  exact Nat.mod_eq_of_lt h

theorem set_of_getElem? {α : Type} {l : List α} {i : ℕ} {a : α} (h : l[i]? = some a) :
    l.set i a = l := by
  obtain ⟨hi, rfl⟩ := List.getElem?_eq_some_iff.mp h
  exact List.set_getElem_self hi

theorem set_none_of_join {α : Type} {l : List (Option α)} {i : ℕ} (h : l[i]?.join = none) :
    l.set i none = l := by
  cases hi : l[i]? with
  | none => exact List.set_eq_of_length_le (List.getElem?_eq_none_iff.mp hi)
  | some x =>
    rw [hi, Option.join_some] at h
    exact set_of_getElem? (h ▸ hi)

theorem mem_zip_map {α β : Type} {f : α → β} {l : List α} {a : α} {b : β}
    (h : (a, b) ∈ l.zip (l.map f)) : a ∈ l ∧ b = f a := by
  refine ⟨(List.of_mem_zip h).1, ?_⟩
  induction l with
  | nil => cases h
  | cons first rest ih =>
    rcases List.mem_cons.mp h with heq | hrest
    · cases heq
      rfl
    · exact ih hrest

/-- A block as it is found by the device that frees it: its owner and its start. -/
def Block.key (b : Block) : ℕ × ℕ := (b.owner, b.base)

namespace Allocation

/-- The block that is freed when a buffer of a context at `site` is dropped. -/
def key? (site : Site) : Allocation → Option (ℕ × ℕ)
  | .host _ => none
  | .device a _ =>
    match site with
    | .host => none
    | .device d => some (d.slot, a.value)
  | .borrowed column =>
    match column.site with
    | .host => none
    | .device d a => some (d.slot, a.value)

/-- Host bytes that are given back when a buffer is dropped. -/
def reserved : Allocation → ℕ
  | .host buffer => buffer.footprint
  | .device _ _ => 0
  | .borrowed _ => 0

end Allocation

theorem Budget.release_zero (B : Budget) : B.release 0 = B := by
  cases B
  simp [Budget.release]

namespace Context

/-- The blocks that a context frees, in the order in which they were acquired. -/
def keys (c : Context) : List (ℕ × ℕ) := c.allocations.filterMap (Allocation.key? c.site)

def reserved (c : Context) : ℕ := (c.allocations.map Allocation.reserved).sum

@[simp] theorem site_hold (c : Context) (a : Allocation) : (c.hold a).site = c.site := rfl

theorem keys_hold (c : Context) (a : Allocation) :
    (c.hold a).keys = c.keys ++ (a.key? c.site).toList := by
  rw [keys, hold, List.filterMap_append]
  cases h : a.key? c.site <;> simp [keys, h]

theorem reserved_hold (c : Context) (a : Allocation) :
    (c.hold a).reserved = c.reserved + a.reserved := by
  simp [reserved, hold]

theorem drop_eq (site : Site) (a : Allocation) (m : Machine) :
    (drop site a m).heap.blocks = m.heap.blocks.filter (fun b => a.key? site != some b.key) ∧
      (drop site a m).budget = m.budget.release a.reserved := by
  have hall : m.heap.blocks.filter (fun b => (none : Option (ℕ × ℕ)) != some b.key) =
      m.heap.blocks := by
    rw [List.filter_eq_self]
    intro b _
    rfl
  have hfree (d : Device) (address : Address) :
      (m.freeDevice d address).heap.blocks =
        m.heap.blocks.filter fun b => some (d.slot, address.value) != some b.key := by
    apply List.filter_congr
    intro b _
    rw [Bool.eq_iff_iff, Bool.not_eq_true', bne_iff_ne, ← Bool.not_eq_true, Bool.and_eq_true,
      beq_iff_eq, beq_iff_eq, ne_eq, Option.some.injEq, Block.key, Prod.mk.injEq]
    exact not_congr (and_congr eq_comm eq_comm)
  cases a with
  | host buffer => exact ⟨hall.symm, rfl⟩
  | device address n =>
    cases site with
    | host => exact ⟨hall.symm, (Budget.release_zero _).symm⟩
    | device d => exact ⟨hfree d address, (Budget.release_zero _).symm⟩
  | borrowed column =>
    rcases column with ⟨source, _ | ⟨d, address⟩⟩
    · exact ⟨hall.symm, (Budget.release_zero _).symm⟩
    · exact ⟨hfree d address, (Budget.release_zero _).symm⟩

theorem blocks_release (c : Context) (m : Machine) :
    (c.release m).heap.blocks = m.heap.blocks.filter fun b => b.key ∉ c.keys := by
  obtain ⟨site, allocations⟩ := c
  unfold release keys
  simp only
  induction allocations generalizing m with
  | nil => simp
  | cons a rest ih =>
    rw [List.foldl_cons, ih, (drop_eq site a m).1, List.filter_filter]
    apply List.filter_congr
    intro b _
    cases h : a.key? site with
    | none => simp [h]
    | some key =>
      rw [List.filterMap_cons_some h, Bool.eq_iff_iff, Bool.and_eq_true, decide_eq_true_iff,
        decide_eq_true_iff, bne_iff_ne, ne_eq, Option.some.injEq, List.mem_cons, not_or, and_comm]
      exact and_congr_left' (not_congr eq_comm)

theorem budget_release (c : Context) (m : Machine) :
    (c.release m).budget = m.budget.release c.reserved := by
  obtain ⟨site, allocations⟩ := c
  unfold release reserved
  simp only
  induction allocations generalizing m with
  | nil => exact (Budget.release_zero _).symm
  | cons a rest ih =>
    rw [List.foldl_cons, ih, (drop_eq site a m).2, List.map_cons, List.sum_cons]
    simp only [Budget.release, Budget.mk.injEq, and_true]
    rw [BitVec.ofNat_add, BitVec.sub_sub]

end Context

/-- One more buffer in the context, and what it takes from the machine. -/
structure Scope.Gains (s : Scope) (a : Allocation) (new : List Block) (s' : Scope) : Prop where
  context : s'.context = s.context.hold a
  blocks : s'.machine.heap.blocks = new ++ s.machine.heap.blocks
  keys : new.map Block.key = (a.key? s.context.site).toList
  inUse : s'.machine.budget.inUse = s.machine.budget.inUse + BitVec.ofNat 64 a.reserved
  limit : s'.machine.budget.limit = s.machine.budget.limit

/-- A scope that started on `m` and has `owed` bytes reserved beside its context. -/
structure Ledger (m : Machine) (owed : ℕ) (s : Scope) : Prop where
  heap : ∃ fresh, s.machine.heap.blocks = fresh ++ m.heap.blocks ∧
    fresh.map Block.key = s.context.keys.reverse
  inUse : s.machine.budget.inUse = m.budget.inUse + BitVec.ofNat 64 (s.context.reserved + owed)
  limit : s.machine.budget.limit = m.budget.limit

namespace Ledger

variable {m : Machine} {owed : ℕ} {s s' : Scope}

theorem start (m : Machine) (site : Site) : Ledger m 0 ⟨{ site }, m⟩ where
  heap := ⟨[], rfl, rfl⟩
  inUse := by simp [Context.reserved]
  limit := rfl

theorem gain {a : Allocation} {new : List Block} (h : Ledger m owed s) (hs : s.Gains a new s') :
    Ledger m owed s' where
  heap := by
    obtain ⟨fresh, hblocks, hkeys⟩ := h.heap
    refine ⟨new ++ fresh, by rw [hs.blocks, hblocks, List.append_assoc], ?_⟩
    rw [List.map_append, hs.keys, hkeys, hs.context, Context.keys_hold, List.reverse_append]
    cases a.key? s.context.site <;> rfl
  inUse := by
    rw [hs.inUse, h.inUse, hs.context, Context.reserved_hold, BitVec.add_assoc, ← BitVec.ofNat_add]
    congr 2
    omega
  limit := hs.limit.trans h.limit

/-- A change of the contents of fresh blocks alone is no change of the ledger. -/
theorem rewrite_contents {before after : List Block} (h : Ledger m owed s)
    (hcontext : s'.context = s.context) (hbudget : s'.machine.budget = s.machine.budget)
    (hbefore : s.machine.heap.blocks = before ++ m.heap.blocks)
    (hafter : s'.machine.heap.blocks = after ++ m.heap.blocks)
    (hkeys : after.map Block.key = before.map Block.key) : Ledger m owed s' where
  heap := by
    obtain ⟨fresh, hfresh, hown⟩ := h.heap
    obtain rfl : before = fresh := List.append_cancel_right (hbefore.symm.trans hfresh)
    exact ⟨after, hafter, by rw [hkeys, hown, hcontext]⟩
  inUse := by rw [hbudget, h.inUse, hcontext]
  limit := by rw [hbudget, h.limit]

theorem of_same (h : Ledger m owed s) (hcontext : s'.context = s.context)
    (hblocks : s'.machine.heap.blocks = s.machine.heap.blocks)
    (hbudget : s'.machine.budget = s.machine.budget) : Ledger m owed s' := by
  obtain ⟨fresh, hfresh, -⟩ := h.heap
  exact h.rewrite_contents hcontext hbudget hfresh (hblocks.trans hfresh) rfl

theorem owe {n : ℕ} (h : Ledger m owed s) (hcontext : s'.context = s.context)
    (hheap : s'.machine.heap = s.machine.heap)
    (hlimit : s'.machine.budget.limit = s.machine.budget.limit)
    (hinUse : s'.machine.budget.inUse = s.machine.budget.inUse + BitVec.ofNat 64 n) :
    Ledger m (owed + n) s' where
  heap := by rw [hheap, hcontext]; exact h.heap
  inUse := by
    rw [hinUse, h.inUse, hcontext, BitVec.add_assoc, ← BitVec.ofNat_add, Nat.add_assoc]
  limit := hlimit.trans h.limit

theorem repay {n : ℕ} (h : Ledger m (owed + n) s) :
    Ledger m owed { s with machine := s.machine.release n } where
  heap := h.heap
  inUse := by
    have hsum : s.machine.budget.inUse - BitVec.ofNat 64 n =
        m.budget.inUse + BitVec.ofNat 64 (s.context.reserved + owed) := by
      rw [h.inUse, ← Nat.add_assoc, BitVec.ofNat_add, ← BitVec.add_assoc, BitVec.add_sub_cancel]
    exact hsum
  limit := h.limit

theorem heap_release (h : Ledger m owed s) : s.release.heap = m.heap := by
  obtain ⟨fresh, hblocks, hkeys⟩ := h.heap
  apply Heap.ext_blocks
  rw [Scope.release, Context.blocks_release, hblocks, List.filter_append]
  have hfreed : fresh.filter (fun b => b.key ∉ s.context.keys) = [] := by
    rw [List.filter_eq_nil_iff]
    intro b hb
    have hmem : b.key ∈ fresh.map Block.key := List.mem_map_of_mem hb
    rw [hkeys, List.mem_reverse] at hmem
    simpa using hmem
  have hkept : m.heap.blocks.filter (fun b => b.key ∉ s.context.keys) = m.heap.blocks := by
    rw [List.filter_eq_self]
    intro c hc
    rw [decide_eq_true_iff]
    intro hmem
    rw [← List.mem_reverse, ← hkeys] at hmem
    obtain ⟨b, hb, hkey⟩ := List.mem_map.mp hmem
    exact Heap.base_ne_of_newer hblocks hb hc (congrArg Prod.snd hkey)
  rw [hfreed, hkept, List.nil_append]

theorem budget_release (h : Ledger m owed s) :
    s.release.budget = { m.budget with inUse := m.budget.inUse + BitVec.ofNat 64 owed } := by
  rw [Scope.release, Context.budget_release, Budget.release, h.inUse, h.limit, Nat.add_comm,
    BitVec.ofNat_add, ← BitVec.add_assoc, BitVec.add_sub_cancel]

end Ledger

end KernelDispatch
