import KernelDispatch.Proofs.Room

/-!
# When demands are granted

Nothing that is granted is given back before the last demand is made. So demands on the host and on
one device are all granted exactly if their bytes together fit the budget and their allocations
together fit the device. Otherwise the machine answers with the refusal of the first that is not
granted.
-/

namespace KernelDispatch

def Demand.allocations : Demand → ℕ
  | .host _ => 0
  | .device _ _ => 1

def allocationsOf (ds : List Demand) : ℕ := (ds.map Demand.allocations).sum

section Sums

variable (x : Demand) (ds rest : List Demand) {d : Device}

@[simp] theorem hostBytesOf_nil : hostBytesOf [] = 0 := rfl

@[simp] theorem hostBytesOf_cons : hostBytesOf (x :: ds) = x.hostBytes + hostBytesOf ds := by
  simp [hostBytesOf]

@[simp] theorem hostBytesOf_append :
    hostBytesOf (ds ++ rest) = hostBytesOf ds + hostBytesOf rest := by
  simp [hostBytesOf]

@[simp] theorem addressesOf_nil : addressesOf [] = 0 := rfl

@[simp] theorem addressesOf_cons : addressesOf (x :: ds) = x.addresses + addressesOf ds := by
  simp [addressesOf]

@[simp] theorem allocationsOf_nil : allocationsOf [] = 0 := rfl

@[simp] theorem allocationsOf_cons :
    allocationsOf (x :: ds) = x.allocations + allocationsOf ds := by
  simp [allocationsOf]

@[simp] theorem allocationsOf_append :
    allocationsOf (ds ++ rest) = allocationsOf ds + allocationsOf rest := by
  simp [allocationsOf]

theorem addressesOf_relimit (limits : ℕ → Option ℕ) :
    addressesOf (ds.map (Demand.relimit limits)) = addressesOf ds := by
  induction ds with
  | nil => rfl
  | cons x ds ih =>
    rw [List.map_cons, addressesOf_cons, addressesOf_cons, ih]
    cases x <;> rfl

variable {ds}

theorem hostBytesOf_eq_zero (h : ∀ n, Demand.host n ∉ ds) : hostBytesOf ds = 0 := by
  refine List.sum_eq_zero fun k hk => ?_
  obtain ⟨x, hx, rfl⟩ := List.mem_map.mp hk
  cases x with
  | host n => exact absurd hx (h n)
  | device d n => rfl

theorem allocationsOf_eq_zero (hds : ∀ x ∈ ds, x.IsOf {d}) (h : ∀ n, Demand.device d n ∉ ds) :
    allocationsOf ds = 0 := by
  refine List.sum_eq_zero fun k hk => ?_
  obtain ⟨x, hx, rfl⟩ := List.mem_map.mp hk
  cases x with
  | host n => rfl
  | device d' n =>
    obtain rfl : d' = d := hds _ hx
    exact absurd hx (h n)

end Sums

theorem Heap.top_le (h : Heap) : h.top ≤ addressSpace := by
  unfold top
  split
  · decide
  · rename_i newest older hblocks
    exact h.inSpace newest (hblocks ▸ List.mem_cons_self)

namespace Machine

/-- The limit on host memory leaves room for `n` more bytes. -/
def HasBytes (m : Machine) (n : ℕ) : Prop :=
  ∀ limit, m.budget.limit = some limit → m.budget.inUse.toNat + n ≤ limit

/-- The limit of a device leaves room for `n` more allocations. -/
def HasSlots (m : Machine) (d : Device) (n : ℕ) : Prop :=
  ∀ most, d.maxLive = some most → m.heap.live d + n ≤ most

/-- There is room for all these demands together, where nothing is asked of a limit that no demand
counts against. -/
structure Fits (m : Machine) (d : Device) (ds : List Demand) : Prop where
  bytes : ∀ n, .host n ∈ ds → m.HasBytes (hostBytesOf ds)
  slots : ∀ n, .device d n ∈ ds → m.HasSlots d (allocationsOf ds)

/-- `e` is the refusal of the first demand that is not granted. -/
def FirstRefusal (m : Machine) (ds : List Demand) (e : Failure) : Prop :=
  ∃ granted x rest m', ds = granted ++ x :: rest ∧ grantAll granted m = .ok m' ∧
  m'.grant x = .error e

variable {m m' next : Machine} {x : Demand} {ds : List Demand} {d : Device} {n k : ℕ} {e : Failure}

theorem HasBytes.mono (h : m.HasBytes k) (hle : n ≤ k) : m.HasBytes n := fun limit hlimit =>
  (Nat.add_le_add_left hle _).trans (h limit hlimit)

theorem HasSlots.mono (h : m.HasSlots d k) (hle : n ≤ k) : m.HasSlots d n := fun most hmost =>
  (Nat.add_le_add_left hle _).trans (h most hmost)

theorem admits_budget_iff (hbytes : m.budget.inUse.toNat + n < sizeBound) :
    m.budget.admits n = true ↔ m.HasBytes n := by
  have hmore : (m.budget.more n).toNat = m.budget.inUse.toNat + n := toNat_add_ofNat hbytes
  unfold Budget.admits HasBytes
  cases m.budget.limit <;> simp [hmore]

theorem admits_heap_iff : m.heap.admits d = true ↔ m.HasSlots d 1 := by
  unfold Heap.admits HasSlots
  cases d.maxLive <;> simp

theorem grant_ok_iff (hx : x.IsOf {d}) (hbytes : m.budget.inUse.toNat + x.hostBytes < sizeBound)
    (haddresses : m.heap.top + x.addresses ≤ addressSpace) :
    (∃ next, m.grant x = .ok next) ↔ m.Fits d [x] := by
  cases x with
  | host n =>
    have hfits : m.Fits d [.host n] ↔ m.HasBytes n :=
      ⟨fun h => h.bytes n List.mem_cons_self, fun h => ⟨fun _ _ => h, by simp⟩⟩
    have hadmits : m.budget.admits n = true ↔ m.HasBytes n := admits_budget_iff hbytes
    rw [hfits, ← hadmits]
    constructor
    · rintro ⟨next, h⟩
      exact (grant_host_ok h).1
    · intro h
      exact ⟨_, bind_eq_ok_iff.mpr ⟨_, (Budget.reserve_eq_ok_iff _).mpr ⟨h, rfl⟩, rfl⟩⟩
  | device d' n =>
    obtain rfl : d' = d := hx
    have hfits : m.Fits d' [.device d' n] ↔ m.HasSlots d' 1 :=
      ⟨fun h => h.slots n List.mem_cons_self, fun h => ⟨by simp, fun _ _ => h⟩⟩
    rw [hfits, ← admits_heap_iff, grant_device]
    by_cases hadmits : m.heap.admits d' = true
    · have room : m.heap.top + spanOf n ≤ addressSpace := haddresses
      rw [if_pos hadmits, dif_pos room]
      exact ⟨fun _ => hadmits, fun _ => ⟨_, rfl⟩⟩
    · simp [hadmits]

theorem top_of_grant (h : m.grant x = .ok next) : next.heap.top = m.heap.top + x.addresses := by
  cases x with
  | host n =>
    obtain ⟨-, rfl⟩ := grant_host_ok h
    rfl
  | device d n =>
    rw [grant_device] at h
    split_ifs at h with hadmits room
    cases h
    exact Heap.top_push room

/-- What a machine has left after it has granted a demand. -/
structure Took (d : Device) (x : Demand) (m next : Machine) : Prop where
  inUse : next.budget.inUse.toNat = m.budget.inUse.toNat + x.hostBytes
  top : next.heap.top = m.heap.top + x.addresses
  bytes : ∀ n, next.HasBytes n ↔ m.HasBytes (x.hostBytes + n)
  slots : ∀ n, next.HasSlots d n ↔ m.HasSlots d (x.allocations + n)

theorem took_of_grant (hx : x.IsOf {d}) (hbytes : m.budget.inUse.toNat + x.hostBytes < sizeBound)
    (h : m.grant x = .ok next) : Took d x m next := by
  have htop := top_of_grant h
  cases x with
  | host n =>
    obtain ⟨-, rfl⟩ := grant_host_ok h
    have hmore : (m.budget.more n).toNat = m.budget.inUse.toNat + n := toNat_add_ofNat hbytes
    refine ⟨hmore, htop, fun k => ?_, fun k => ?_⟩
    · simp only [HasBytes, hmore, Demand.hostBytes, Nat.add_assoc]
    · rw [Demand.allocations, Nat.zero_add]
      rfl
  | device d' n =>
    obtain rfl : d' = d := hx
    rw [grant_device] at h
    split_ifs at h with hadmits room
    cases h
    refine ⟨rfl, htop, fun k => ?_, fun k => ?_⟩
    · rw [Demand.hostBytes, Nat.zero_add]
      rfl
    · simp only [HasSlots, Heap.live_push room, if_true, Demand.allocations, Nat.add_assoc]

theorem Fits.head (h : m.Fits d (x :: ds)) : m.Fits d [x] := by
  refine ⟨fun n hn => ?_, fun n hn => ?_⟩
  · exact (h.bytes n (List.mem_cons.mpr (Or.inl (List.mem_singleton.mp hn)))).mono (by simp)
  · exact (h.slots n (List.mem_cons.mpr (Or.inl (List.mem_singleton.mp hn)))).mono (by simp)

/-- A list of demands fits if the first does and the others fit what it leaves. -/
theorem Took.fits_cons_iff (h : Took d x m next) (hds : ∀ y ∈ ds, y.IsOf {d}) :
    m.Fits d (x :: ds) ↔ m.Fits d [x] ∧ next.Fits d ds := by
  constructor
  · intro hfits
    refine ⟨hfits.head, ⟨fun n hn => ?_, fun n hn => ?_⟩⟩
    · rw [h.bytes, ← hostBytesOf_cons]
      exact hfits.bytes n (List.mem_cons_of_mem x hn)
    · rw [h.slots, ← allocationsOf_cons]
      exact hfits.slots n (List.mem_cons_of_mem x hn)
  · rintro ⟨hone, hothers⟩
    refine ⟨fun n hn => ?_, fun n hn => ?_⟩
    · by_cases hhost : ∃ k, Demand.host k ∈ ds
      · obtain ⟨k, hk⟩ := hhost
        rw [hostBytesOf_cons, ← h.bytes]
        exact hothers.bytes k hk
      · have hnone := not_exists.mp hhost
        have hfirst := hone.bytes n
          (List.mem_singleton.mpr ((List.mem_cons.mp hn).resolve_right (hnone n)))
        rwa [hostBytesOf_cons, hostBytesOf_eq_zero hnone]
    · by_cases hdevice : ∃ k, Demand.device d k ∈ ds
      · obtain ⟨k, hk⟩ := hdevice
        rw [allocationsOf_cons, ← h.slots]
        exact hothers.slots k hk
      · have hnone := not_exists.mp hdevice
        have hfirst := hone.slots n
          (List.mem_singleton.mpr ((List.mem_cons.mp hn).resolve_right (hnone n)))
        rwa [allocationsOf_cons, allocationsOf_eq_zero hds hnone]

/-- Demands of the host and of one device are all granted exactly if they fit together. -/
theorem grantAll_ok_iff (hds : ∀ x ∈ ds, x.IsOf {d})
    (hbytes : m.budget.inUse.toNat + hostBytesOf ds < sizeBound)
    (haddresses : m.heap.top + addressesOf ds ≤ addressSpace) :
    (∃ m', grantAll ds m = .ok m') ↔ m.Fits d ds := by
  induction ds generalizing m with
  | nil => exact ⟨fun _ => ⟨by simp, by simp⟩, fun _ => ⟨m, rfl⟩⟩
  | cons x ds ih =>
    rw [hostBytesOf_cons] at hbytes
    rw [addressesOf_cons] at haddresses
    have hx := hds x List.mem_cons_self
    have hrest : ∀ y ∈ ds, y.IsOf {d} := fun y hy => hds y (List.mem_cons_of_mem x hy)
    have hone := grant_ok_iff (m := m) hx (by omega) (by omega)
    have hothers {next : Machine} (hnext : Took d x m next) :
        (∃ m', grantAll ds next = .ok m') ↔ next.Fits d ds :=
      ih hrest (by rw [hnext.inUse]; omega) (by rw [hnext.top]; omega)
    constructor
    · rintro ⟨m', h⟩
      obtain ⟨next, hgrant, h⟩ := bind_eq_ok_iff.mp h
      have hnext := took_of_grant hx (by omega) hgrant
      exact (hnext.fits_cons_iff hrest).mpr ⟨hone.mp ⟨next, hgrant⟩, (hothers hnext).mp ⟨m', h⟩⟩
    · intro hfits
      obtain ⟨next, hgrant⟩ := hone.mpr hfits.head
      have hnext := took_of_grant hx (by omega) hgrant
      obtain ⟨m', h⟩ := (hothers hnext).mpr ((hnext.fits_cons_iff hrest).mp hfits).2
      exact ⟨m', bind_eq_ok_iff.mpr ⟨next, hgrant, h⟩⟩

theorem addresses_of_grantAll (h : grantAll ds m = .ok m') :
    m.heap.top + addressesOf ds ≤ addressSpace := by
  induction ds generalizing m with
  | nil => exact m.heap.top_le
  | cons x ds ih =>
    obtain ⟨next, hx, hrest⟩ := bind_eq_ok_iff.mp h
    rw [addressesOf_cons, ← Nat.add_assoc, ← top_of_grant hx]
    exact ih hrest

theorem firstRefusal_of_error (h : grantAll ds m = .error e) : m.FirstRefusal ds e := by
  induction ds generalizing m with
  | nil => cases h
  | cons x ds ih =>
    rcases bind_eq_error_iff.mp h with hx | ⟨next, hx, hrest⟩
    · exact ⟨[], x, ds, m, rfl, rfl, hx⟩
    · obtain ⟨granted, y, rest, m', rfl, hgranted, hy⟩ := ih hrest
      exact ⟨x :: granted, y, rest, m', rfl, bind_eq_ok_iff.mpr ⟨next, hx, hgranted⟩, hy⟩

end Machine

end KernelDispatch
