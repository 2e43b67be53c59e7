import KernelDispatch.Proofs.Context.Demands
import KernelDispatch.Proofs.Room

/-!
# What owners have of a machine

An owner has host bytes that it gives back and blocks that it frees when it is dropped. A machine is
accounted for by what its owners have together: the bytes in use are their bytes, and the live
blocks are their blocks. What is acquired adds to the account, what is dropped goes out of it, and
both keep within the limits.
-/

namespace KernelDispatch

/-- Host bytes, and blocks by owner and start. -/
abbrev Estate := ℕ × Multiset (ℕ × ℕ)

def Estate.of (numBytes : ℕ) (keys : List (ℕ × ℕ)) : Estate := (numBytes, ↑keys)

/-- Host bytes, and for each block the slot of its device. -/
abbrev Load := ℕ × Multiset ℕ

def Demand.load : Demand → Load
  | .host n => (n, 0)
  | .device d _ => (0, {d.slot})

/-- What is left of an estate when it is not told where the blocks are. -/
def Estate.load : Estate →+ Load :=
  (AddMonoidHom.id ℕ).prodMap (Multiset.mapAddMonoidHom Prod.fst)

def Allocation.estate (site : Site) (a : Allocation) : Estate :=
  .of a.reserved (a.key? site).toList

def Context.estate (c : Context) : Estate := .of c.reserved c.keys

namespace Context

theorem estate_empty (site : Site) : ({ site } : Context).estate = 0 := rfl

theorem estate_hold (c : Context) (a : Allocation) :
    (c.hold a).estate = c.estate + a.estate c.site := by
  rw [estate, reserved_hold, keys_hold, Estate.of, ← Multiset.coe_add]
  rfl

theorem estate_singleton (site : Site) (a : Allocation) :
    ({ site, allocations := [a] } : Context).estate = a.estate site := by
  have hhold := estate_hold { site } a
  rwa [estate_empty, zero_add] at hhold

end Context

theorem Heap.nodup_keys (h : Heap) : (h.blocks.map Block.key).Nodup := by
  rw [List.Nodup, List.pairwise_map]
  refine h.sorted.imp ?_
  intro newer older hle hkey
  have hbase : newer.base = older.base := congrArg Prod.snd hkey
  have hstop := older.stop_lt_limit
  rw [Block.stop] at hstop
  omega

theorem Heap.live_eq_countP (h : Heap) (d : Device) :
    h.live d = (h.blocks.map Block.key).countP (·.1 == d.slot) := by
  rw [live, blocksOf, ← List.countP_eq_length_filter, List.countP_map]
  rfl

theorem Heap.keys_eq_of_extents {h h' : Heap}
    (hextents : h'.blocks.map Block.extent = h.blocks.map Block.extent) :
    h'.blocks.map Block.key = h.blocks.map Block.key := by
  have hkey : Block.key = (fun x : ℕ × ℕ × ℕ => (x.1, x.2.1)) ∘ Block.extent := rfl
  rw [hkey, ← List.map_map, hextents, List.map_map]

theorem filter_notMem_of_nodup {α : Type} [BEq α] [LawfulBEq α] {s : Multiset α} {l : List α}
    (h : (s + (l : Multiset α)).Nodup) : (s + (l : Multiset α)).filter (· ∉ l) = s := by
  obtain ⟨-, -, hdisjoint⟩ := Multiset.nodup_add.mp h
  have hkept : s.filter (· ∉ l) = s :=
    Multiset.filter_eq_self.mpr fun a ha hl => Multiset.disjoint_left.mp hdisjoint ha hl
  have hfreed : (l : Multiset α).filter (· ∉ l) = 0 :=
    Multiset.filter_eq_nil.mpr fun a ha hl => hl ha
  rw [Multiset.filter_add, hkept, hfreed, add_zero]

/-- The devices that have the limit of their slot. -/
def limitedBy (limits : ℕ → Option ℕ) : Set Device := {d | d.maxLive = limits d.slot}

namespace Machine

variable {m m' : Machine} {E A : Estate}

/-- The owners of all that is in use and live on the machine have `E` together. -/
structure Accounts (m : Machine) (E : Estate) : Prop where
  inUse : m.budget.inUse = BitVec.ofNat 64 E.1
  blocks : ((m.heap.blocks.map Block.key : List (ℕ × ℕ)) : Multiset (ℕ × ℕ)) = E.2

theorem Accounts.toNat_inUse (h : m.Accounts E) (hbound : E.1 < sizeBound) :
    m.budget.inUse.toNat = E.1 := by
  rw [h.inUse, BitVec.toNat_ofNat]
  exact Nat.mod_eq_of_lt hbound

theorem Accounts.live (h : m.Accounts E) (d : Device) :
    m.heap.live d = E.2.countP (·.1 = d.slot) := by
  rw [Heap.live_eq_countP, ← h.blocks, Multiset.coe_countP]
  rfl

theorem Accounts.gain {new : List Block} (h : m.Accounts E)
    (hinUse : m'.budget.inUse = m.budget.inUse + BitVec.ofNat 64 A.1)
    (hblocks : m'.heap.blocks = new ++ m.heap.blocks)
    (hkeys : ((new.map Block.key : List (ℕ × ℕ)) : Multiset (ℕ × ℕ)) = A.2) :
    m'.Accounts (E + A) where
  inUse := by rw [hinUse, h.inUse, Prod.fst_add, BitVec.ofNat_add]
  blocks := by
    rw [hblocks, List.map_append, ← Multiset.coe_add, hkeys, h.blocks, Prod.snd_add, add_comm]

/-- Bytes that are given back and blocks that are freed go out of the account. -/
theorem Accounts.drop {n : ℕ} {keys : List (ℕ × ℕ)} (h : m.Accounts (E + .of n keys))
    (hbudget : m'.budget = m.budget.release n)
    (hblocks : m'.heap.blocks = m.heap.blocks.filter (·.key ∉ keys)) : m'.Accounts E where
  inUse := by
    rw [hbudget, Budget.release, h.inUse, Prod.fst_add, BitVec.ofNat_add]
    exact BitVec.add_sub_cancel _ _
  blocks := by
    have hbefore : ((m.heap.blocks.map Block.key : List (ℕ × ℕ)) : Multiset (ℕ × ℕ)) = E.2 + keys :=
      h.blocks
    have hnodup : (E.2 + (keys : Multiset (ℕ × ℕ))).Nodup := by
      rw [← hbefore]
      exact m.heap.nodup_keys
    calc ((m'.heap.blocks.map Block.key : List (ℕ × ℕ)) : Multiset (ℕ × ℕ))
      _ = ((m.heap.blocks.map Block.key).filter (· ∉ keys) : List (ℕ × ℕ)) := by
        rw [hblocks, List.filter_map]
        rfl
      _ = (E.2 + (keys : Multiset (ℕ × ℕ))).filter (· ∉ keys) := by
        rw [← hbefore, Multiset.filter_coe]
      _ = E.2 := filter_notMem_of_nodup hnodup

/-- The bytes in use and the live allocations of every device are within these limits, which are
given for each slot. -/
structure Within (hostLimit : Option ℕ) (limits : ℕ → Option ℕ) (m : Machine) : Prop where
  limit : m.budget.limit = hostLimit
  bytes : ∀ most, hostLimit = some most → m.budget.inUse.toNat ≤ most
  slots : ∀ d : Device, ∀ most, limits d.slot = some most → m.heap.live d ≤ most

variable {hostLimit : Option ℕ} {limits : ℕ → Option ℕ} {x : Demand} {ds : List Demand}

theorem Within.grant (h : m.Within hostLimit limits) (hx : x.IsOf (limitedBy limits))
    (hgrant : m.grant x = .ok m') : m'.Within hostLimit limits := by
  cases x with
  | host n =>
    obtain ⟨hadmits, rfl⟩ := grant_host_ok hgrant
    refine ⟨h.limit, ?_, h.slots⟩
    intro most hmost
    rw [Budget.admits, h.limit, hmost] at hadmits
    simpa using hadmits
  | device d n =>
    rw [grant_device] at hgrant
    split_ifs at hgrant with hadmits hroom
    cases hgrant
    refine ⟨h.limit, h.bytes, ?_⟩
    intro e most hmost
    rw [Heap.live_push]
    split_ifs with hslot
    · have hmax : d.maxLive = some most := by rw [hx, hslot, hmost]
      rw [Heap.admits, hmax] at hadmits
      have hlive : m.heap.live e = m.heap.live d := by simp only [Heap.live, Heap.blocksOf, hslot]
      rw [hlive]
      simpa using hadmits
    · exact h.slots e most hmost

theorem Within.alike (h : m.Within hostLimit limits) (halike : m.Alike m') :
    m'.Within hostLimit limits where
  limit := halike.budget.limit.trans h.limit
  bytes := by
    intro most hmost
    rcases halike.budget.inUse with hnone | hinUse
    · exact nomatch (h.limit.symm.trans hnone).symm.trans hmost
    · rw [hinUse]
      exact h.bytes most hmost
  slots := by
    intro d most hmost
    rw [Heap.live_eq, halike.extents, ← Heap.live_eq]
    exact h.slots d most hmost

theorem Within.grants (h : m.Within hostLimit limits) (hds : ∀ x ∈ ds, x.IsOf (limitedBy limits))
    (hgrants : m.Grants ds m') : m'.Within hostLimit limits := by
  obtain ⟨m₁, hgranted, halike⟩ := hgrants
  refine Within.alike ?_ halike
  clear halike
  induction ds generalizing m with
  | nil =>
    cases hgranted
    exact h
  | cons x rest ih =>
    obtain ⟨next, hx, hrest⟩ := bind_eq_ok_iff.mp hgranted
    have hnext := h.grant (hds x List.mem_cons_self) hx
    exact ih hnext (fun y hy => hds y (List.mem_cons_of_mem x hy)) hrest

/-- The machine is accounted for and within its limits. -/
structure Sound (hostLimit : Option ℕ) (limits : ℕ → Option ℕ) (m : Machine) (E : Estate) :
    Prop where
  accounts : m.Accounts E
  within : m.Within hostLimit limits

namespace Sound

theorem reserve {n : ℕ} (h : m.Sound hostLimit limits E) (hreserve : m.reserve n = .ok m') :
    m'.Sound hostLimit limits (E + .of n []) := by
  have hwithin : m'.Within hostLimit limits := h.within.grant (x := .host n) trivial hreserve
  obtain ⟨-, rfl⟩ := grant_host_ok hreserve
  exact ⟨h.accounts.gain rfl (List.nil_append _).symm rfl, hwithin⟩

theorem newBuffer {n : ℕ} {b : HostBuffer} (h : m.Sound hostLimit limits E)
    (hnew : (newBuffer n).run m = (.ok b, m')) :
    m'.Sound hostLimit limits (E + .of b.footprint []) := by
  rw [(newBuffer_ok hnew).1]
  exact h.reserve (newBuffer_eq_ok_iff.mp hnew).1

theorem allocDevice {d : Device} {n : ℕ} {a : Address} (h : m.Sound hostLimit limits E)
    (hd : d ∈ limitedBy limits) (halloc : m.allocDevice d n = .ok (a, m')) :
    m'.Sound hostLimit limits (E + .of 0 [(d.slot, a.value)]) := by
  have hgrant : m.grant (.device d n) = .ok m' := by
    rw [grant, halloc]
    rfl
  obtain ⟨hblocks, hbudget⟩ := allocDevice_ok halloc
  refine ⟨h.accounts.gain ?_ (hblocks.trans List.singleton_append.symm) rfl,
    h.within.grant (x := .device d n) hd hgrant⟩
  rw [hbudget]
  exact (BitVec.add_zero _).symm

theorem drop {n : ℕ} {keys : List (ℕ × ℕ)} (h : m.Sound hostLimit limits (E + .of n keys))
    (hbound : (E + .of n keys).1 < sizeBound) (hbudget : m'.budget = m.budget.release n)
    (hblocks : m'.heap.blocks = m.heap.blocks.filter (·.key ∉ keys)) :
    m'.Sound hostLimit limits E where
  accounts := h.accounts.drop hbudget hblocks
  within := by
    have hafter := h.accounts.drop hbudget hblocks
    have hbefore := h.accounts.toNat_inUse hbound
    rw [Prod.fst_add] at hbefore hbound
    refine ⟨?_, ?_, ?_⟩
    · rw [hbudget]
      exact h.within.limit
    · intro most hmost
      have hbytes := h.within.bytes most hmost
      rw [hafter.toNat_inUse (by omega)]
      omega
    · intro d most hmost
      have hlive := h.within.slots d most hmost
      rw [h.accounts.live, Prod.snd_add, Multiset.countP_add] at hlive
      rw [hafter.live]
      omega

theorem release {n : ℕ} (h : m.Sound hostLimit limits (E + .of n []))
    (hbound : (E + .of n []).1 < sizeBound) : (m.release n).Sound hostLimit limits E :=
  h.drop hbound rfl (List.filter_eq_self.mpr fun _ _ => by simp).symm

theorem releaseContext (c : Context) (h : m.Sound hostLimit limits (E + c.estate))
    (hbound : (E + c.estate).1 < sizeBound) : (c.release m).Sound hostLimit limits E :=
  h.drop hbound (c.budget_release m) (c.blocks_release m)

theorem dropAllocation (site : Site) (a : Allocation)
    (h : m.Sound hostLimit limits (E + a.estate site))
    (hbound : (E + a.estate site).1 < sizeBound) :
    (Context.drop site a m).Sound hostLimit limits E := by
  rw [← Context.estate_singleton] at h hbound
  exact h.releaseContext _ hbound

theorem copyTo {d : Device} {a : Address} {src : Bytes} (h : m.Sound hostLimit limits E)
    (hcopy : m.copyTo d a src = .ok m') : m'.Sound hostLimit limits E := by
  obtain ⟨hbudget, hextents⟩ := copyTo_ok hcopy
  refine ⟨⟨?_, ?_⟩, h.within.alike (alike_copyTo hcopy)⟩
  · rw [hbudget]
    exact h.accounts.inUse
  · rw [Heap.keys_eq_of_extents hextents]
    exact h.accounts.blocks

end Sound

end Machine

end KernelDispatch
