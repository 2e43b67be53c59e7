import KernelDispatch.Proofs.Context.Acquire

/-!
# Demands on the machine

Reservations and allocations are the only way in which the machine decides how an invocation ends. A
demand is one of them, and demands are made in order until one is refused. What is granted depends
on the budget and on the places and sizes of the live blocks, not on what the blocks hold, so the
answer to the demands of an invocation can be told from the machine on which it starts.
-/

namespace KernelDispatch

/-- Host bytes to reserve, or device memory to allocate. -/
inductive Demand
  | host (numBytes : ℕ)
  | device (d : Device) (numBytes : ℕ)

def Site.demand : Site → ℕ → Demand
  | .host, n => .host n
  | .device d, n => .device d n

/-- The demands of what comes after a check; there are none if it fails. -/
def demandsAfter {α : Type} (check : Except Failure α) (rest : α → List Demand) : List Demand :=
  match check with
  | .ok a => rest a
  | .error _ => []

@[simp] theorem demandsAfter_ok {α : Type} (a : α) (rest : α → List Demand) :
    demandsAfter (.ok a) rest = rest a := rfl

@[simp] theorem demandsAfter_error {α : Type} (e : Failure) (rest : α → List Demand) :
    demandsAfter (.error e) rest = [] := rfl

theorem demandsAfter_nil {α : Type} (x : Except Failure α) : demandsAfter x (fun _ => []) = [] := by
  cases x <;> rfl

theorem exists_of_mem_demandsAfter {α : Type} {c : Except Failure α} {rest : α → List Demand}
    {x : Demand} (h : x ∈ demandsAfter c rest) : ∃ a, c = .ok a ∧ x ∈ rest a := by
  cases c with
  | ok a => exact ⟨a, rfl, h⟩
  | error e => exact absurd h List.not_mem_nil

def Block.extent (b : Block) : ℕ × ℕ × ℕ := (b.owner, b.base, b.bytes.length)

theorem Heap.live_eq (h : Heap) (d : Device) :
    h.live d = (h.blocks.map Block.extent).countP fun x => x.1 == d.slot := by
  rw [live, blocksOf, ← List.countP_eq_length_filter, List.countP_map]
  rfl

/-- Budgets that grant alike: with the same count, or both without a limit. -/
structure Budget.Alike (B B' : Budget) : Prop where
  limit : B'.limit = B.limit
  inUse : B.limit = none ∨ B'.inUse = B.inUse

namespace Budget.Alike

variable {B B' B₁ B₂ : Budget}

theorem refl (B : Budget) : B.Alike B := ⟨rfl, Or.inr rfl⟩

theorem symm (h : B.Alike B') : B'.Alike B where
  limit := h.limit.symm
  inUse := by
    rw [h.limit]
    exact h.inUse.imp_right Eq.symm

theorem trans (h : B.Alike B₁) (h' : B₁.Alike B₂) : B.Alike B₂ where
  limit := h'.limit.trans h.limit
  inUse := by
    rcases h.inUse with hnone | hcount
    · exact Or.inl hnone
    · rw [← h.limit, ← hcount]
      exact h'.inUse

theorem of_eq (h : B' = B) : B.Alike B' := by
  rw [h]
  exact .refl B

theorem more (h : B.Alike B') (n : ℕ) :
    ({ B with inUse := B.more n } : Budget).Alike { B' with inUse := B'.more n } where
  limit := h.limit
  inUse := h.inUse.imp_right fun hcount => by rw [Budget.more, Budget.more, hcount]

theorem reserve_error {n : ℕ} {e : Failure} (h : B.Alike B') (hx : B.reserve n = .error e) :
    B'.reserve n = .error e := by
  have hlimit := h.limit
  unfold reserve Budget.more at *
  cases hB : B.limit with
  | none =>
    rw [hB] at hx
    cases hx
  | some limit =>
    have hcount := h.inUse.resolve_left (by simp [hB])
    rw [hB] at hx hlimit
    rw [hlimit, hcount]
    exact hx

theorem admits {n : ℕ} (h : B.Alike B') (hx : B.admits n = true) : B'.admits n = true := by
  unfold Budget.admits Budget.more at *
  rw [h.limit]
  rcases h.inUse with hnone | hcount
  · rw [hnone]
    rfl
  · rwa [hcount]

end Budget.Alike

namespace Machine

variable {m m' m₁ m₂ : Machine} {ds rest : List Demand} {x : Demand} {e : Failure}

/-- Machines that grant alike: they differ in no more than the contents of blocks, the number of
fetches and, without a limit, the bytes in use. -/
structure Alike (m m' : Machine) : Prop where
  budget : m.budget.Alike m'.budget
  extents : m'.heap.blocks.map Block.extent = m.heap.blocks.map Block.extent

theorem Alike.refl (m : Machine) : m.Alike m := ⟨.refl _, rfl⟩

theorem Alike.symm (h : m.Alike m') : m'.Alike m := ⟨h.budget.symm, h.extents.symm⟩

theorem Alike.trans (h : m.Alike m₁) (h' : m₁.Alike m₂) : m.Alike m₂ :=
  ⟨h.budget.trans h'.budget, h'.extents.trans h.extents⟩

theorem Alike.admits (h : m.Alike m') (d : Device) : m'.heap.admits d = m.heap.admits d := by
  simp only [Heap.admits, Heap.live_eq, h.extents]

theorem Alike.top (h : m.Alike m') : m'.heap.top = m.heap.top := by
  have hextents := h.extents
  unfold Heap.top
  cases hnew : m'.heap.blocks with
  | nil =>
    cases hold : m.heap.blocks with
    | nil => rfl
    | cons b older => simp [hnew, hold] at hextents
  | cons b' older' =>
    cases hold : m.heap.blocks with
    | nil => simp [hnew, hold] at hextents
    | cons b older =>
      simp only [hnew, hold, List.map_cons, List.cons.injEq, Block.extent,
        Prod.mk.injEq] at hextents
      obtain ⟨⟨-, hbase, hlength⟩, -⟩ := hextents
      simp [Block.limit, hbase, hlength]

def grant (m : Machine) : Demand → Except Failure Machine
  | .host n => m.reserve n
  | .device d n => (m.allocDevice d n).map (·.2)

/-- The machine after it has granted all demands, or the refusal of the first that it does not
grant. -/
def grantAll : List Demand → Machine → Except Failure Machine
  | [], m => .ok m
  | x :: rest, m => m.grant x >>= grantAll rest

theorem grant_host_ok {n : ℕ} (h : m.grant (.host n) = .ok m') :
    m.budget.admits n = true ∧
      m' = { m with budget := { m.budget with inUse := m.budget.more n } } := by
  obtain ⟨B, hB, heq⟩ := bind_eq_ok_iff.mp h
  cases heq
  obtain ⟨hadmits, rfl⟩ := (Budget.reserve_eq_ok_iff _).mp hB
  exact ⟨hadmits, rfl⟩

theorem grant_device (m : Machine) (d : Device) (n : ℕ) :
    m.grant (.device d n) =
      if m.heap.admits d then
        if room : m.heap.top + spanOf n ≤ addressSpace then
          .ok { m with heap := m.heap.push d n room }
        else .error (.outOfDeviceMemory d.id n)
      else .error (.outOfDeviceMemory d.id n) := by
  rw [grant, allocDevice, Heap.alloc]
  by_cases hadmits : m.heap.admits d = true
  · by_cases hroom : m.heap.top + spanOf n ≤ addressSpace
    · simp only [if_pos hadmits, dif_pos hroom]
      rfl
    · simp only [if_pos hadmits, dif_neg hroom]
      rfl
  · simp only [if_neg hadmits]
    rfl

theorem grant_error (h : m.grant x = .error e) : e.isRefusal = true := by
  cases x with
  | host n => exact reserve_error h
  | device d n =>
    rw [grant_device] at h
    split_ifs at h <;> cases h <;> rfl

theorem grantAll_singleton (x : Demand) (m : Machine) : grantAll [x] m = m.grant x := by
  rw [grantAll]
  cases m.grant x <;> rfl

theorem grantAll_append (ds rest : List Demand) (m : Machine) :
    grantAll (ds ++ rest) m = grantAll ds m >>= grantAll rest := by
  induction ds generalizing m with
  | nil => rfl
  | cons x ds ih =>
    rw [List.cons_append, grantAll, grantAll]
    cases m.grant x with
    | error e => rfl
    | ok m' => exact ih m'

theorem grantAll_error (h : grantAll ds m = .error e) : e.isRefusal = true := by
  induction ds generalizing m with
  | nil => cases h
  | cons x ds ih =>
    rcases bind_eq_error_iff.mp h with hx | ⟨m', -, hrest⟩
    · exact grant_error hx
    · exact ih hrest

theorem Alike.grant_ok (h : m.Alike m') (hx : m.grant x = .ok m₁) :
    ∃ m₂, m'.grant x = .ok m₂ ∧ m₁.Alike m₂ := by
  cases x with
  | host n =>
    obtain ⟨hadmits, rfl⟩ := grant_host_ok hx
    refine ⟨_, bind_eq_ok_iff.mpr
      ⟨_, (Budget.reserve_eq_ok_iff _).mpr ⟨h.budget.admits hadmits, rfl⟩, rfl⟩, ?_⟩
    exact ⟨h.budget.more n, h.extents⟩
  | device d n =>
    rw [grant_device] at hx ⊢
    split_ifs at hx with hadmits hroom
    cases hx
    rw [if_pos (by rwa [h.admits]), dif_pos (by rwa [h.top])]
    refine ⟨_, rfl, h.budget, ?_⟩
    simp [Block.extent, h.top, h.extents]

theorem Alike.grant_error (h : m.Alike m') (hx : m.grant x = .error e) : m'.grant x = .error e := by
  cases x with
  | host n =>
    rcases bind_eq_error_iff.mp hx with hB | ⟨B, -, hpure⟩
    · exact bind_eq_error_iff.mpr (Or.inl (h.budget.reserve_error hB))
    · cases hpure
  | device d n =>
    rw [grant_device] at hx ⊢
    rw [h.admits]
    simp only [h.top]
    split_ifs at hx ⊢ <;> exact hx

theorem Alike.grantAll_ok (h : m.Alike m') (hds : grantAll ds m = .ok m₁) :
    ∃ m₂, grantAll ds m' = .ok m₂ ∧ m₁.Alike m₂ := by
  induction ds generalizing m m' with
  | nil =>
    cases hds
    exact ⟨m', rfl, h⟩
  | cons x ds ih =>
    obtain ⟨next, hx, hrest⟩ := bind_eq_ok_iff.mp hds
    obtain ⟨next', hx', hnext⟩ := h.grant_ok hx
    obtain ⟨m₂, hrest', hend⟩ := ih hnext hrest
    exact ⟨m₂, bind_eq_ok_iff.mpr ⟨next', hx', hrest'⟩, hend⟩

theorem Alike.grantAll_error (h : m.Alike m') (hds : grantAll ds m = .error e) :
    grantAll ds m' = .error e := by
  induction ds generalizing m m' with
  | nil => cases hds
  | cons x ds ih =>
    rcases bind_eq_error_iff.mp hds with hx | ⟨next, hx, hrest⟩
    · exact bind_eq_error_iff.mpr (Or.inl (h.grant_error hx))
    · obtain ⟨next', hx', hnext⟩ := h.grant_ok hx
      exact bind_eq_error_iff.mpr (Or.inr ⟨next', hx', ih hnext hrest⟩)

/-- The machine becomes `m'` by granting these demands, up to what its blocks hold. -/
def Grants (m : Machine) (ds : List Demand) (m' : Machine) : Prop :=
  ∃ m₁, grantAll ds m = .ok m₁ ∧ m₁.Alike m'

/-- Something that makes these demands ends with `e`, which is the refusal of one of them if there
is one. -/
def Stops (m : Machine) (ds : List Demand) (e : Failure) : Prop :=
  match grantAll ds m with
  | .ok _ => e.isRefusal = false
  | .error e' => e = e'

theorem Grants.nil (h : m.Alike m') : m.Grants [] m' := ⟨m, rfl, h⟩

theorem Grants.alike (h : m.Grants ds m₁) (h' : m₁.Alike m₂) : m.Grants ds m₂ := by
  obtain ⟨m', hds, hend⟩ := h
  exact ⟨m', hds, hend.trans h'⟩

theorem Grants.append (h : m.Grants ds m₁) (h' : m₁.Grants rest m₂) : m.Grants (ds ++ rest) m₂ := by
  obtain ⟨mid, hds, hmid⟩ := h
  obtain ⟨last, hrest, hlast⟩ := h'
  obtain ⟨last', hrest', hlast'⟩ := hmid.symm.grantAll_ok hrest
  refine ⟨last', ?_, hlast'.symm.trans hlast⟩
  rw [grantAll_append, hds]
  exact hrest'

theorem Stops.refused (h : grantAll ds m = .error e) : m.Stops ds e := by
  rw [Stops, h]

theorem Stops.checked (h : m.Grants ds m₁) (he : e.isRefusal = false) : m.Stops ds e := by
  obtain ⟨m', hds, -⟩ := h
  rw [Stops, hds]
  exact he

theorem Grants.stops (h : m.Grants ds m₁) (h' : m₁.Stops rest e) : m.Stops (ds ++ rest) e := by
  obtain ⟨mid, hds, hmid⟩ := h
  rw [Stops, grantAll_append, hds]
  change match grantAll rest mid with
    | .ok _ => e.isRefusal = false
    | .error e' => e = e'
  unfold Stops at h'
  cases hrest : grantAll rest m₁ with
  | ok last =>
    obtain ⟨last', hrest', -⟩ := hmid.symm.grantAll_ok hrest
    rw [hrest] at h'
    rw [hrest']
    exact h'
  | error e' =>
    rw [hrest] at h'
    rw [hmid.symm.grantAll_error hrest]
    exact h'

/-- After a check has stopped something, it makes no further demands. -/
theorem Stops.append (h : m.Stops ds e) (hrest : e.isRefusal = false → rest = []) :
    m.Stops (ds ++ rest) e := by
  unfold Stops at h
  cases hds : grantAll ds m with
  | ok m₁ =>
    rw [hds] at h
    rw [hrest h, List.append_nil, Stops, hds]
    exact h
  | error e' =>
    rw [hds] at h
    subst h
    apply Stops.refused
    rw [grantAll_append, hds]
    rfl

end Machine

end KernelDispatch
