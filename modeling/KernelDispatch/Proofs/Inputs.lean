import KernelDispatch.Proofs.Context.Cells

/-!
# Materialised inputs show what is forecast

Materialising the inputs of a plan gives, for every input in order, a buffer that shows the bytes of
the forecast, and the forecast row count. Where it stops, the forecast stops with the same cause, or
the machine refused a reservation or an allocation; the ledger is kept either way.
-/

namespace KernelDispatch

namespace ColumnStore

variable {S : ColumnStore} {ref : ColumnRef} {level : MemoryLevel} {deviceId : DeviceId}
  {m m' : Machine} {c : FetchedColumn}

/-- Where a fetched column is, and what the machine gave for it. -/
def Serves (level : MemoryLevel) (m : Machine) (c : FetchedColumn) (m' : Machine) : Prop :=
  m'.budget = m.budget ∧
    match level with
    | .host => c.site = .host ∧ m'.heap.blocks = m.heap.blocks
    | .device => ∃ (d : Device) (a : Address), c.site = .device d a ∧
        m'.heap.blocks = ⟨d.slot, a.value,
          zeroFilled (max c.source.bytes.length slotBytes) c.source.bytes⟩ :: m.heap.blocks

theorem copyToDevice_cases (column : StoredColumn) (d : Device) (m : Machine) :
    (∃ a m₁ m₂, m.allocDevice d (max column.bytes.length slotBytes) = .ok (a, m₁) ∧
      m₁.copyTo d a column.bytes = .ok m₂ ∧
      (copyToDevice column d).run m = (.ok ⟨column, .device d a⟩, m₂)) ∨
    ∃ e, m.allocDevice d (max column.bytes.length slotBytes) = .error e ∧
      (copyToDevice column d).run m = (.error e, m) := by
  cases halloc : m.allocDevice d (max column.bytes.length slotBytes) with
  | error e =>
    exact Or.inr ⟨e, rfl, Action.run_bind_eq_error_iff.mpr
      (Or.inl (Action.run_step_eq_error_iff.mpr ⟨halloc, rfl⟩))⟩
  | ok am =>
    obtain ⟨a, m₁⟩ := am
    obtain ⟨m₂, hcopy, -⟩ := Machine.copyTo_of_granted halloc (le_max_left _ slotBytes)
    refine Or.inl ⟨a, m₁, m₂, rfl, hcopy, Action.run_bind_eq_ok_iff.mpr
      ⟨a, m₁, Action.run_step_eq_ok_iff.mpr halloc,
      Action.run_bind_eq_ok_iff.mpr ⟨(), m₂, ?_, rfl⟩⟩⟩
    rw [Action.run_onFailure, Action.run_attempt_eq_ok_iff.mpr hcopy]

theorem copyToDevice_ok {column : StoredColumn} {d : Device}
    (h : (copyToDevice column d).run m = (.ok c, m')) :
    c.source = column ∧ Serves .device m c m' := by
  rcases copyToDevice_cases column d m with ⟨a, m₁, m₂, halloc, hcopy, hrun⟩ | ⟨e, -, hrun⟩
  · rw [hrun] at h
    cases h
    obtain ⟨m₃, hcopy₃, hbudget, hwritten⟩ :=
      Machine.copyTo_of_granted halloc (le_max_left column.bytes.length slotBytes)
    rw [hcopy] at hcopy₃
    cases hcopy₃
    exact ⟨rfl, hbudget.trans (Machine.allocDevice_ok halloc).2, d, a, rfl, hwritten⟩
  · rw [hrun] at h
    cases h

theorem copyToDevice_error {column : StoredColumn} {d : Device} {e : Failure}
    (h : (copyToDevice column d).run m = (.error e, m')) : m' = m ∧ e.isRefusal = true := by
  rcases copyToDevice_cases column d m with ⟨a, m₁, m₂, -, -, hrun⟩ | ⟨e', halloc, hrun⟩
  · rw [hrun] at h
    cases h
  · rw [hrun] at h
    cases h
    exact ⟨rfl, Machine.allocDevice_error halloc⟩

theorem fetch_ok (h : (S.fetch ref level deviceId).run m = (.ok c, m')) :
    S.look ref level deviceId = .ok c.source ∧ Serves level m c m' := by
  unfold fetch at h
  unfold look
  cases hfind : S.find? ref.index with
  | none =>
    rw [hfind] at h
    cases h
  | some column =>
    rw [hfind] at h
    obtain ⟨c₁, m₁, hplace, hcount⟩ := Action.run_bind_eq_ok_iff.mp h
    cases hcount
    cases level with
    | host =>
      cases hplace
      exact ⟨rfl, rfl, rfl, rfl⟩
    | device =>
      unfold place at hplace
      cases hd : S.device with
      | none =>
        rw [hd] at hplace
        cases hplace
      | some d =>
        simp only [hd] at hplace ⊢
        by_cases hid : d.id = deviceId
        · rw [if_pos hid] at hplace ⊢
          obtain ⟨hsource, hserves⟩ := copyToDevice_ok hplace
          exact ⟨congrArg Except.ok hsource.symm, hserves⟩
        · rw [if_neg hid] at hplace
          cases hplace

theorem fetch_error {e : Failure} (h : (S.fetch ref level deviceId).run m = (.error e, m')) :
    m' = m ∧ (e.isRefusal = true ∨ S.look ref level deviceId = .error e) := by
  unfold fetch at h
  unfold look
  cases hfind : S.find? ref.index with
  | none =>
    rw [hfind] at h
    cases h
    exact ⟨rfl, Or.inr rfl⟩
  | some column =>
    rw [hfind] at h
    rcases Action.run_bind_eq_error_iff.mp h with hplace | ⟨c₁, m₁, -, hcount⟩
    · cases level with
      | host => cases hplace
      | device =>
        unfold place at hplace
        cases hd : S.device with
        | none =>
          rw [hd] at hplace
          cases hplace
          exact ⟨rfl, Or.inr rfl⟩
        | some d =>
          simp only [hd] at hplace ⊢
          by_cases hid : d.id = deviceId
          · rw [if_pos hid] at hplace
            exact (copyToDevice_error hplace).imp_right Or.inl
          · rw [if_neg hid] at hplace ⊢
            cases hplace
            exact ⟨rfl, Or.inr rfl⟩
    · cases hcount

theorem atomic_fetch (S : ColumnStore) (ref : ColumnRef) (level : MemoryLevel)
    (deviceId : DeviceId) : (S.fetch ref level deviceId).Atomic :=
  fun _ _ _ h => (fetch_error h).1

/-- Dropping a column at once gives back what the machine gave for it. -/
theorem Serves.release (h : Serves level m c m') :
    (c.release m').heap.blocks = m.heap.blocks ∧ (c.release m').budget = m.budget := by
  obtain ⟨hbudget, hsite⟩ := h
  cases level with
  | host =>
    obtain ⟨hhost, hblocks⟩ := hsite
    rw [FetchedColumn.release, hhost]
    exact ⟨hblocks, hbudget⟩
  | device =>
    obtain ⟨d, a, hdevice, hblocks⟩ := hsite
    obtain ⟨hfreed, hgiven⟩ := Context.drop_eq .host (.borrowed c) m'
    simp only [Allocation.key?, hdevice, hblocks] at hfreed
    constructor
    · refine hfreed.trans ?_
      rw [List.filter_cons_of_neg (by simp [Block.key]), List.filter_eq_self]
      intro b hb
      rw [bne_iff_ne, ne_eq, Option.some.injEq]
      intro hkey
      exact Heap.base_ne_of_newer (hblocks.trans (List.singleton_append).symm)
        (List.mem_singleton_self _) hb (congrArg Prod.snd hkey)
    · exact hgiven.trans ((Budget.release_zero _).trans hbudget)

end ColumnStore

namespace Scope

variable {s : Scope}

/-- A column that was fetched at the level of the context and is moved into it shows its bytes. -/
theorem borrow_of_serves {c : FetchedColumn} {m' : Machine}
    (h : ColumnStore.Serves s.context.memoryLevel s.machine c m') :
    (∃ new, s.Gains (.borrowed c) new ({ s with machine := m' }.borrow c).2) ∧
      ({ s with machine := m' }.borrow c).2.Offers ({ s with machine := m' }.borrow c).1
        c.source.bytes := by
  obtain ⟨source, site⟩ := c
  obtain ⟨hbudget, hserves⟩ := h
  have hlevel : s.context.memoryLevel = s.context.site.deviceType.memoryLevel := rfl
  have hinUse : m'.budget.inUse = s.machine.budget.inUse + BitVec.ofNat 64 0 := by
    rw [hbudget, BitVec.add_zero]
  have hlimit : m'.budget.limit = s.machine.budget.limit := by rw [hbudget]
  cases hsite : s.context.site with
  | host =>
    rw [hlevel, hsite] at hserves
    obtain ⟨hhost, hblocks⟩ := hserves
    simp only at hhost
    subst hhost
    have hgain : s.Gains (.borrowed ⟨source, .host⟩) []
        ({ s with machine := m' }.borrow ⟨source, .host⟩).2 :=
      ⟨rfl, hblocks, rfl, hinUse, hlimit⟩
    refine ⟨⟨_, hgain⟩, rfl, ?_⟩
    rw [hgain.context, Context.site_hold, hsite]
    refine ⟨?_, ?_⟩
    · rw [Context.hold, List.length_append]
      exact Nat.lt_succ_self _
    · simp only [load, borrow, hold, Context.hold, List.getElem?_concat_length, List.take_length]
  | device d =>
    rw [hlevel, hsite] at hserves
    obtain ⟨f, a, hdevice, hblocks⟩ := hserves
    simp only at hdevice hblocks
    subst hdevice
    have hgain : s.Gains (.borrowed ⟨source, .device f a⟩) [⟨f.slot, a.value, _⟩]
        ({ s with machine := m' }.borrow ⟨source, .device f a⟩).2 :=
      ⟨rfl, hblocks, rfl, hinUse, hlimit⟩
    refine ⟨⟨_, hgain⟩, rfl, ?_⟩
    rw [hgain.context, Context.site_hold, hsite]
    exact ⟨_, by rw [hgain.blocks]; exact List.mem_cons_self, rfl, List.prefix_append _ _⟩

end Scope

/-- A state that has the ledgers of an earlier one. -/
def Scope.Settles (s s' : Scope) : Prop := ∀ {m owed}, Ledger m owed s → Ledger m owed s'

namespace Inputs

variable {store : ColumnStore} {function : String} {deviceId : DeviceId} {index : ℕ}
  {rows : Option ℕ}

theorem meets_fetch (s₀ : Scope) (ref : ColumnRef) (level : MemoryLevel) :
    Action.Meets (· = s₀) (Scope.onMachine (store.fetch ref level deviceId))
      (fun c s => ∃ m', store.look ref level deviceId = .ok c.source ∧
        ColumnStore.Serves level s₀.machine c m' ∧ s = { s₀ with machine := m' })
      (fun e s => s = s₀ ∧ (e.isRefusal = true ∨ store.look ref level deviceId = .error e)) := by
  apply (Scope.atomic_onMachine (ColumnStore.atomic_fetch _ _ _ _)).meets
  · rintro s c s' rfl hrun
    obtain ⟨m', hfetch, rfl⟩ := Scope.run_onMachine_eq_iff.mp hrun
    obtain ⟨hlook, hserves⟩ := ColumnStore.fetch_ok hfetch
    exact ⟨m', hlook, hserves, rfl⟩
  · rintro s e rfl hrun
    obtain ⟨m', hfetch, -⟩ := Scope.run_onMachine_eq_iff.mp hrun
    exact ⟨rfl, (ColumnStore.fetch_error hfetch).2⟩

theorem meets_column (s₀ : Scope) (ref : ColumnRef) :
    Action.Meets (· = s₀) (column store function deviceId index rows ref)
      (fun bn s => s₀.Grows s ∧ ∃ c, store.look ref s₀.context.memoryLevel deviceId = .ok c ∧
        agrees rows c.count = true ∧ bn.2 = c.count ∧ s.Offers bn.1 c.bytes)
      (fun e s => s₀.Settles s ∧ (e.isRefusal = true ∨
        forecastOne store function s₀.context.memoryLevel deviceId index rows (.column ref) =
          .error e)) := by
  apply Action.meets_read_bind
  apply (meets_fetch s₀ ref s₀.context.memoryLevel).bind
  · rintro e s ⟨rfl, hcause⟩
    refine ⟨id, hcause.imp_right fun hlook => ?_⟩
    rw [forecastOne, hlook]
    rfl
  · intro c
    by_cases hagrees : agrees rows c.count = true
    · rw [if_pos hagrees]
      rintro s ⟨m', hlook, hserves, rfl⟩
      obtain ⟨⟨new, hgain⟩, hoffers⟩ := Scope.borrow_of_serves hserves
      exact ⟨hgain.grows, c.source, hlook, hagrees, rfl, hoffers⟩
    · rw [if_neg hagrees]
      rintro s ⟨m', hlook, hserves, rfl⟩
      obtain ⟨hblocks, hbudget⟩ := hserves.release
      refine ⟨fun hledger => hledger.of_same rfl hblocks hbudget, Or.inr ?_⟩
      rw [forecastOne, hlook]
      exact if_neg hagrees

theorem meets_literal (s₀ : Scope) (value : Scalar) :
    Action.Meets (· = s₀) (Scope.literal value)
      (fun b s => s₀.Grows s ∧ ∃ bytes, value.literalBytes? = some bytes ∧
        s.Offers b (zeroFilled slotBytes bytes))
      (fun e s => s = s₀ ∧ (e.isRefusal = true ∨
        value.literalBytes? = none ∧ e = .unsupportedLiteral value)) := by
  rw [Scope.literal]
  cases hbytes : value.literalBytes? with
  | none =>
    apply Action.meets_fail
    rintro s rfl
    exact ⟨rfl, Or.inr ⟨rfl, rfl⟩⟩
  | some bytes =>
    have hlen := Scalar.length_of_literalBytes? hbytes
    apply (Scope.atomic_cell bytes).meets
    · rintro s b s' rfl hcell
      obtain ⟨hgrows, hoffers⟩ := Scope.cell_ok hlen hcell
      exact ⟨hgrows, bytes, rfl, hoffers⟩
    · rintro s e rfl hcell
      exact ⟨rfl, Or.inl (Scope.cell_error hlen hcell).2⟩

theorem meets_one (s₀ : Scope) (input : InputExpr) :
    Action.Meets (· = s₀) (one store function deviceId index rows input)
      (fun br s => s₀.Grows s ∧ ∃ bytes,
        forecastOne store function s₀.context.memoryLevel deviceId index rows input =
          .ok (bytes, br.2) ∧ s.Offers br.1 bytes)
      (fun e s => s₀.Settles s ∧ (e.isRefusal = true ∨
        forecastOne store function s₀.context.memoryLevel deviceId index rows input =
          .error e)) := by
  cases input with
  | column ref =>
    apply (meets_column s₀ ref).bind fun _ _ h => h
    rintro ⟨b, count⟩
    apply Action.meets_pure
    rintro s ⟨hgrows, c, hlook, hagrees, hcount, hoffers⟩
    refine ⟨hgrows, c.bytes, ?_, hoffers⟩
    rw [forecastOne, hlook]
    exact (if_pos hagrees).trans (congrArg (fun n => Except.ok (c.bytes, some n)) hcount.symm)
  | constant value =>
    apply (meets_literal s₀ value).bind
    · rintro e s ⟨rfl, hcause⟩
      refine ⟨id, hcause.imp_right ?_⟩
      rintro ⟨hbytes, rfl⟩
      rw [forecastOne, hbytes]
    · intro b
      apply Action.meets_pure
      rintro s ⟨hgrows, bytes, hbytes, hoffers⟩
      refine ⟨hgrows, _, ?_, hoffers⟩
      rw [forecastOne, hbytes]
  | unresolved description =>
    apply Action.meets_fail
    rintro s rfl
    exact ⟨id, Or.inr rfl⟩

/-- All inputs: their buffers show the forecast bytes in order. -/
theorem meets_allFrom (inputs : List InputExpr) (index : ℕ) (rows : Option ℕ) (s₀ : Scope) :
    Action.Meets (· = s₀) (allFrom store function deviceId index rows inputs)
      (fun r s => s₀.Grows s ∧ ∃ bytes,
        forecastFrom store function s₀.context.memoryLevel deviceId index rows inputs =
          .ok (bytes, r.rows) ∧ List.Forall₂ s.Offers r.buffers bytes)
      (fun e s => s₀.Settles s ∧ (e.isRefusal = true ∨
        forecastFrom store function s₀.context.memoryLevel deviceId index rows inputs =
          .error e)) := by
  induction inputs generalizing index rows s₀ with
  | nil =>
    apply Action.meets_pure
    rintro s rfl
    exact ⟨Scope.Grows.refl s, [], rfl, List.Forall₂.nil⟩
  | cons input rest ih =>
    apply (meets_one s₀ input).bind
    · rintro e s ⟨hsettles, hcause⟩
      refine ⟨hsettles, hcause.imp_right fun hone => ?_⟩
      rw [forecastFrom, hone]
      rfl
    · rintro ⟨b, rows₁⟩ s₁ ⟨hgrows, bytes, hone, hoffers⟩
      have hlevel : s₁.context.memoryLevel = s₀.context.memoryLevel :=
        congrArg (fun site => site.deviceType.memoryLevel) hgrows.site
      refine (ih (index + 1) rows₁ s₁).bind ?_ (fun r => Action.meets_pure ?_) s₁ rfl
      · rintro e s ⟨hsettles, hcause⟩
        refine ⟨fun hledger => hsettles (hgrows.ledger hledger), hcause.imp_right fun hrest => ?_⟩
        rw [hlevel] at hrest
        rw [forecastFrom, hone]
        change (forecastFrom _ _ _ _ _ _ _ >>= _) = _
        rw [hrest]
        rfl
      · rintro s ⟨hmore, others, hrest, hall⟩
        rw [hlevel] at hrest
        refine ⟨hgrows.trans hmore, bytes :: others, ?_,
          List.Forall₂.cons (hmore.offers hoffers) hall⟩
        rw [forecastFrom, hone]
        change (forecastFrom _ _ _ _ _ _ _ >>= _) = _
        rw [hrest]
        rfl

end Inputs

end KernelDispatch
