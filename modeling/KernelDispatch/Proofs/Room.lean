import KernelDispatch.Proofs.Demand

/-!
# Machines with more room

What one machine grants is granted by every machine that has at least as many bytes free in its
budget and room for at least as many allocations on each device, where the devices may have other
limits. Only the sums have to stay within the words in which they are counted.
-/

namespace KernelDispatch

section Limits

variable (limits : ℕ → Option ℕ)

/-- The device under other limits, which are given for each slot. -/
def Device.relimit (d : Device) : Device := { d with maxLive := limits d.slot }

def Demand.relimit : Demand → Demand
  | .host n => .host n
  | .device d n => .device (d.relimit limits) n

end Limits

namespace Demand

def hostBytes : Demand → ℕ
  | .host n => n
  | .device _ _ => 0

def addresses : Demand → ℕ
  | .host _ => 0
  | .device _ n => spanOf n

/-- The demand is made of one of these devices, or of none. -/
def IsOf (devices : Set Device) : Demand → Prop
  | .host _ => True
  | .device d _ => d ∈ devices

end Demand

def hostBytesOf (ds : List Demand) : ℕ := (ds.map Demand.hostBytes).sum

def addressesOf (ds : List Demand) : ℕ := (ds.map Demand.addresses).sum

/-- Bytes that can still be reserved, which is negative if the limit is exceeded. -/
def Budget.freeBytes (B : Budget) : WithTop ℤ :=
  match B.limit with
  | none => ⊤
  | some limit => ((limit - B.inUse.toNat : ℤ) : WithTop ℤ)

def Heap.freeSlots (h : Heap) (d : Device) : ℕ∞ :=
  match d.maxLive with
  | none => ⊤
  | some most => ((most - h.live d : ℕ) : ℕ∞)

namespace Budget

variable {B B' : Budget} {n : ℕ}

theorem freeBytes_le_iff :
    B.freeBytes ≤ B'.freeBytes ↔ ∀ limit', B'.limit = some limit' →
      ∃ limit, B.limit = some limit ∧ limit + B'.inUse.toNat ≤ limit' + B.inUse.toNat := by
  unfold freeBytes
  cases B.limit with
  | none => cases B'.limit <;> simp
  | some limit =>
    cases B'.limit with
    | none => simp
    | some limit' =>
      simp only [WithTop.coe_le_coe, Option.some.injEq, forall_eq', exists_eq_left']
      omega

theorem toNat_more_le : (B.more n).toNat ≤ B.inUse.toNat + n := by
  rw [more, BitVec.toNat_add, BitVec.toNat_ofNat, Nat.add_mod_mod]
  exact Nat.mod_le _ _

theorem freeBytes_more (h : B.freeBytes ≤ B'.freeBytes) (hbound : B.inUse.toNat + n < sizeBound)
    (hadmits : B.admits n = true) :
    B'.admits n = true ∧
      ({ B with inUse := B.more n } : Budget).freeBytes ≤
        ({ B' with inUse := B'.more n } : Budget).freeBytes := by
  rw [freeBytes_le_iff] at h ⊢
  have hmore : (B.more n).toNat = B.inUse.toNat + n := toNat_add_ofNat hbound
  have hmore' : (B'.more n).toNat ≤ B'.inUse.toNat + n := toNat_more_le
  constructor
  · unfold admits at *
    cases hlimit' : B'.limit with
    | none => rfl
    | some limit' =>
      obtain ⟨limit, hlimit, hle⟩ := h limit' hlimit'
      rw [hlimit] at hadmits
      simp only [Option.all_some, decide_eq_true_eq] at hadmits ⊢
      omega
  · intro limit' hlimit'
    obtain ⟨limit, hlimit, hle⟩ := h limit' hlimit'
    refine ⟨limit, hlimit, ?_⟩
    simp only
    omega

end Budget

namespace Heap

variable {h h' : Heap} {d e : Device} {n : ℕ}

theorem admits_iff : h.admits d = true ↔ 0 < h.freeSlots d := by
  unfold admits freeSlots
  cases d.maxLive with
  | none => simp
  | some most => simp

theorem live_push (room : h.top + spanOf n ≤ addressSpace) :
    (h.push d n room).live e = h.live e + if d.slot = e.slot then 1 else 0 := by
  simp only [live, blocksOf, blocks_push, List.filter_cons, beq_iff_eq]
  split_ifs <;> simp

theorem freeSlots_push (room : h.top + spanOf n ≤ addressSpace) :
    (h.push d n room).freeSlots e =
      h.freeSlots e - ((if d.slot = e.slot then 1 else 0 : ℕ) : ℕ∞) := by
  unfold freeSlots
  cases e.maxLive with
  | none => rfl
  | some most =>
    simp only [live_push]
    rw [← ENat.natCast_sub, Nat.sub_sub]

theorem top_push (room : h.top + spanOf n ≤ addressSpace) :
    (h.push d n room).top = h.top + spanOf n := by
  simp [top, push, Block.limit]

end Heap

namespace Machine

/-- The second machine has at least as much free as the first, on these devices under other
limits. -/
structure Roomier (limits : ℕ → Option ℕ) (devices : Set Device) (m m' : Machine) : Prop where
  bytes : m.budget.freeBytes ≤ m'.budget.freeBytes
  slots : ∀ d ∈ devices, m.heap.freeSlots d ≤ m'.heap.freeSlots (d.relimit limits)

variable {limits : ℕ → Option ℕ} {devices : Set Device} {m m' m₁ : Machine} {x : Demand}
  {ds : List Demand}

theorem Roomier.grant (h : Roomier limits devices m m') (hx : x.IsOf devices)
    (hbytes : m.budget.inUse.toNat + x.hostBytes < sizeBound)
    (haddresses : m'.heap.top + x.addresses ≤ addressSpace) (hgrant : m.grant x = .ok m₁) :
    ∃ m₂, m'.grant (x.relimit limits) = .ok m₂ ∧ Roomier limits devices m₁ m₂ ∧
      m₁.budget.inUse.toNat = m.budget.inUse.toNat + x.hostBytes ∧
      m₂.heap.top = m'.heap.top + x.addresses := by
  cases x with
  | host n =>
    obtain ⟨hadmits, rfl⟩ := grant_host_ok hgrant
    obtain ⟨hadmits', hfree⟩ := Budget.freeBytes_more h.bytes hbytes hadmits
    exact ⟨_, bind_eq_ok_iff.mpr ⟨_, (Budget.reserve_eq_ok_iff _).mpr ⟨hadmits', rfl⟩, rfl⟩,
      ⟨hfree, h.slots⟩, toNat_add_ofNat hbytes, rfl⟩
  | device d n =>
    rw [grant_device] at hgrant
    split_ifs at hgrant with hadmits hroom
    cases hgrant
    have hadmits' : m'.heap.admits (d.relimit limits) = true :=
      Heap.admits_iff.mpr ((Heap.admits_iff.mp hadmits).trans_le (h.slots d hx))
    have hroom' : m'.heap.top + spanOf n ≤ addressSpace := haddresses
    refine ⟨{ m' with heap := m'.heap.push (d.relimit limits) n hroom' }, ?_, ⟨h.bytes, ?_⟩, rfl,
      Heap.top_push hroom'⟩
    · rw [Demand.relimit, grant_device, if_pos hadmits', dif_pos hroom']
    · intro e he
      simp only [Heap.freeSlots_push]
      exact tsub_le_tsub_right (h.slots e he) _

/-- The demands that one machine grants are granted by one with more room. -/
theorem Roomier.grantAll (h : Roomier limits devices m m') (hds : ∀ x ∈ ds, x.IsOf devices)
    (hbytes : m.budget.inUse.toNat + hostBytesOf ds < sizeBound)
    (haddresses : m'.heap.top + addressesOf ds ≤ addressSpace)
    (hgranted : grantAll ds m = .ok m₁) :
    ∃ m₂, Machine.grantAll (ds.map (Demand.relimit limits)) m' = .ok m₂ := by
  induction ds generalizing m m' with
  | nil => exact ⟨m', rfl⟩
  | cons x ds ih =>
    simp only [hostBytesOf, addressesOf, List.map_cons, List.sum_cons] at hbytes haddresses
    obtain ⟨next, hx, hrest⟩ := bind_eq_ok_iff.mp hgranted
    obtain ⟨next', hx', hroomier, hcount, htop⟩ :=
      h.grant (hds x List.mem_cons_self) (by omega) (by omega) hx
    obtain ⟨m₂, hrest'⟩ := ih hroomier (fun y hy => hds y (List.mem_cons_of_mem x hy))
      (by rw [hcount, hostBytesOf]; omega) (by rw [htop, addressesOf]; omega) hrest
    exact ⟨m₂, bind_eq_ok_iff.mpr ⟨next', hx', hrest'⟩⟩

end Machine

end KernelDispatch
