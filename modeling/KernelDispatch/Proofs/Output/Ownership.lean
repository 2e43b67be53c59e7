import KernelDispatch.Proofs.Dispatcher.Conditions
import KernelDispatch.Proofs.Output.Attempts

/-!
# Ownership of output storage

Output is allocated all at once or not at all. The checks say in full which requests can be served,
and a request that passes them fails only if its reservation is refused. The storage is then owned
by the result: whatever is done with the buffers and the context, it stays reserved until the result
is dropped, and no longer.
-/

namespace KernelDispatch

theorem Machine.reserve_eq_error {m : Machine} {n : ℕ} {e : Failure} (h : m.reserve n = .error e) :
    ∃ limit, m.budget.admits n = false ∧ e = .memoryLimitExceeded n m.budget.inUse.toNat limit := by
  rcases bind_eq_error_iff.mp h with hbudget | ⟨B, -, hpure⟩
  · unfold Budget.reserve at hbudget
    unfold Budget.admits
    cases hlimit : m.budget.limit with
    | none =>
      rw [hlimit] at hbudget
      cases hbudget
    | some limit =>
      rw [hlimit] at hbudget
      simp only at hbudget
      split_ifs at hbudget with hexceeded
      cases hbudget
      exact ⟨limit, by simpa using hexceeded, rfl⟩
  · cases hpure

theorem ResultSet.entries_of_create {types : List DataType} {storage : HostBuffer} {capacity : ℕ}
    {r : ResultSet} (h : create types storage capacity = .ok r) : r.entries = capacity := by
  unfold create at h
  split_ifs at h
  cases h
  rfl

theorem OutputBuffers.Zeroed.slots {plan : Plan} {rows : ℕ} {o : OutputBuffers}
    (ho : o.Zeroed plan rows) (hentries : o.result.entries = rows) {column : ℕ}
    (hcolumn : column < plan.outputs.length) :
    o.result.slots column = .ok (List.replicate rows 0) := by
  have hcount : column < o.result.columnCount := by rwa [ho.columnCount]
  have hregion := ResultSet.column_in_region (r := o.result) le_rfl hcount
  rw [ho.columnCount, ho.capacity] at hregion
  have hwords : o.result.columnWords column = List.replicate rows 0 := by
    rw [ResultSet.columnWords, ResultSet.columnOffset, ho.padded, ho.capacity, slice,
      List.drop_replicate, List.take_replicate, Nat.min_eq_left (by omega), wordsOf_zeros]
  have htype : o.result.columnType column = .ok (o.result.types.get ⟨column, hcount⟩) := by
    rw [ResultSet.columnType, List.getElem?_eq_getElem hcount]
    rfl
  rw [ResultSet.slots, htype, hwords, hentries]
  exact congrArg Except.ok (by simp)

namespace OutputRequest

variable {q : OutputRequest} {plan : Plan} {c : Context} {m : Machine}

/-- A request that can be served for a plan in a context, if the budget has room for its bytes. -/
structure Admissible (q : OutputRequest) (plan : Plan) (c : Context) : Prop where
  columnar : q.layout.columnar = true
  /-- Every slot is a word of which some bytes are used. -/
  slots : ∀ slot ∈ q.layout.slots, slot.padded = 8 ∧ 1 ≤ slot.logical ∧ slot.logical ≤ 8
  columns : q.layout.slots.length = plan.outputs.length
  inputGroups : q.inputGroups.length = 1
  offsetGroups : q.offsetGroups.length = 1
  deviceType : q.deviceType = c.deviceType
  deviceId : ∀ d, c.site = .device d → d.id = q.deviceId
  size : 8 * (plan.outputs.length * q.rows) < sizeBound

theorem checkLayout_eq_ok_iff {columns : ℕ} : q.checkLayout columns = .ok () ↔
    q.layout.columnar = true ∧
      (∀ slot ∈ q.layout.slots, slot.padded = 8 ∧ 1 ≤ slot.logical ∧ slot.logical ≤ 8) ∧
      q.layout.slots.length = columns := by
  unfold checkLayout
  constructor
  · intro h
    split at h
    · rename_i hcolumnar
      split at h
      · cases h
      · rename_i hpadded
        split at h
        · cases h
        · rename_i hlogical
          split at h
          · rename_i hcolumns
            refine ⟨hcolumnar, ?_, hcolumns⟩
            intro slot hslot
            have hp := List.find?_eq_none.mp hpadded slot hslot
            have hl := List.find?_eq_none.mp hlogical slot hslot
            simp [slotBytes] at hp hl
            omega
          · cases h
    · cases h
  · rintro ⟨hcolumnar, hslots, hcolumns⟩
    have hpadded : q.layout.slots.find? (·.padded != slotBytes) = none := by
      rw [List.find?_eq_none]
      intro slot hslot
      simp [slotBytes, (hslots slot hslot).1]
    have hlogical : q.layout.slots.find?
        (fun slot => slot.logical == 0 || slot.padded < slot.logical) = none := by
      rw [List.find?_eq_none]
      intro slot hslot
      have hwidth := hslots slot hslot
      simp
      omega
    rw [if_pos hcolumnar, hpadded, hlogical]
    exact if_pos hcolumns

theorem checkGroups_eq_ok_iff :
    q.checkGroups = .ok () ↔ q.inputGroups.length = 1 ∧ q.offsetGroups.length = 1 := by
  unfold checkGroups
  split_ifs with h
  · simp [h]
  · simp [h]

theorem checkContext_passes_iff : q.checkContext c = .ok () ↔
    q.deviceType = c.deviceType ∧ ∀ d, c.site = .device d → d.id = q.deviceId := by
  by_cases htype : q.deviceType = c.deviceType
  · have hsite : q.deviceType = c.site.deviceType := htype
    have hcontext : q.checkContext c = q.checkContext { site := c.site } := rfl
    rw [hcontext, checkContext_eq_ok_iff hsite]
    simp [htype]
  · rw [checkContext, if_neg htype]
    simp [htype]

/-- The checks pass exactly for the requests that can be served. -/
theorem check_eq_ok_iff :
    q.check plan c = .ok (8 * (plan.outputs.length * q.rows)) ↔ q.Admissible plan c := by
  constructor
  · intro h
    obtain ⟨hn, hsize⟩ := check_ok h
    obtain ⟨_, hlayout, h⟩ := bind_eq_ok_iff.mp h
    obtain ⟨_, hgroups, h⟩ := bind_eq_ok_iff.mp h
    obtain ⟨_, hcontext, h⟩ := bind_eq_ok_iff.mp h
    obtain ⟨hcolumnar, hslots, hcolumns⟩ := checkLayout_eq_ok_iff.mp hlayout
    obtain ⟨hinputs, hoffsets⟩ := checkGroups_eq_ok_iff.mp hgroups
    obtain ⟨htype, hid⟩ := checkContext_passes_iff.mp hcontext
    exact ⟨hcolumnar, hslots, hcolumns, hinputs, hoffsets, htype, hid, hsize⟩
  · intro h
    have hnum : ∃ n, q.numBytes? = some n := by
      rw [numBytes?_isSome_iff, h.columns]
      have hsize := h.size
      omega
    obtain ⟨n, hn⟩ := hnum
    obtain ⟨hbytes, -⟩ := numBytes?_eq_some hn
    have hlayout := checkLayout_eq_ok_iff.mpr ⟨h.columnar, h.slots, h.columns⟩
    have hgroups := checkGroups_eq_ok_iff.mpr ⟨h.inputGroups, h.offsetGroups⟩
    have hcontext := checkContext_passes_iff.mpr ⟨h.deviceType, h.deviceId⟩
    refine bind_eq_ok_iff.mpr ⟨_, hlayout, bind_eq_ok_iff.mpr ⟨_, hgroups,
      bind_eq_ok_iff.mpr ⟨_, hcontext, ?_⟩⟩⟩
    rw [hn, hbytes, h.columns, Nat.mul_comm 8]

theorem admissible_of_check {n : ℕ} (h : q.check plan c = .ok n) : q.Admissible plan c := by
  obtain ⟨hn, -⟩ := check_ok h
  rw [hn, Nat.mul_comm] at h
  exact check_eq_ok_iff.mp h

/-- How a request that passes the checks ends, and with which scope. -/
inductive Ends (q : OutputRequest) (plan : Plan) (c : Context) (m : Machine) :
    Except Failure OutputBuffers → Scope → Prop
  | refused {limit : ℕ} (hfull : m.budget.admits (8 * (plan.outputs.length * q.rows)) = false) :
    Ends q plan c m (.error (.memoryLimitExceeded (8 * (plan.outputs.length * q.rows))
      m.budget.inUse.toNat limit)) ⟨c, m⟩
  | tooLarge (hroom : m.budget.admits (8 * (plan.outputs.length * q.rows)) = true)
    (hlarge : Word.signedBound ≤ 8 * (plan.outputs.length * q.rows)) :
    Ends q plan c m (.error .capacityOverflow) ⟨c, m⟩
  | allocated {o : OutputBuffers}
    (hroom : m.budget.admits (8 * (plan.outputs.length * q.rows)) = true)
    (hsmall : 8 * (plan.outputs.length * q.rows) < Word.signedBound)
    (hzeroed : o.Zeroed plan q.rows) (hentries : o.result.entries = q.rows) :
    Ends q plan c m (.ok o) ⟨c, { m with budget := { m.budget with
      inUse := m.budget.more (8 * (plan.outputs.length * q.rows)) } }⟩

/-- A request that passes the checks is served if the budget has room for its bytes and they are no
more than a single allocation can have. -/
theorem allocateColumns_of_admissible (h : q.Admissible plan c) :
    q.Ends plan c m ((q.allocateColumns plan).run ⟨c, m⟩).1
      ((q.allocateColumns plan).run ⟨c, m⟩).2 := by
  have hadmissible := check_eq_ok_iff.mpr h
  have hwhole : 8 * slotsFor (8 * (plan.outputs.length * q.rows)) =
      8 * (plan.outputs.length * q.rows) := by
    rw [Nat.mul_comm 8 (plan.outputs.length * q.rows), slotsFor_mul_eight, Nat.mul_comm]
  rcases allocateColumns_cases q plan ⟨c, m⟩ with ⟨n, m', r, hcheck, hnew, hcreate, hzeroed, hrun⟩ |
    ⟨e, hcheck, -⟩ | ⟨n, e, hcheck, hnew, hrun⟩
  · cases hadmissible.symm.trans hcheck
    obtain ⟨hreserve, -⟩ := Machine.newBuffer_eq_ok_iff.mp hnew
    have hfits := Machine.newBuffer_fits hnew
    rw [hwhole] at hreserve hfits
    obtain ⟨hadmits, rfl⟩ := Machine.grant_host_ok hreserve
    rw [hrun]
    exact .allocated hadmits hfits hzeroed (ResultSet.entries_of_create hcreate)
  · cases hadmissible.symm.trans hcheck
  · cases hadmissible.symm.trans hcheck
    have hcause := (Machine.newBuffer_eq_error_iff.mp hnew).2
    rw [hwhole] at hcause
    rw [hrun]
    rcases hcause with hreserve | ⟨⟨m₁, hreserve⟩, hfresh⟩
    · obtain ⟨limit, hfull, rfl⟩ := Machine.reserve_eq_error hreserve
      exact .refused hfull
    · obtain ⟨hlarge, rfl⟩ := HostBuffer.fresh_eq_error_iff.mp hfresh
      rw [hwhole] at hlarge
      exact .tooLarge (Machine.grant_host_ok hreserve).1 hlarge

end OutputRequest

namespace ResultSet

variable {r r' : ResultSet}

/-- What no use of a result changes: the types of its columns, the rows that they have room for, and
the bytes that were asked for. -/
def extent (r : ResultSet) : List DataType × ℕ × ℕ := (r.types, r.capacity, r.storage.size)

theorem extent_store (r : ResultSet) (s : Store) : (r.store s).extent = r.extent := by
  rw [extent, types_store, capacity_store, size_store, extent]

theorem extent_setEntries {rows : ℕ} (h : r.setEntries rows = .ok r') : r'.extent = r.extent := by
  unfold setEntries at h
  split_ifs at h
  cases h
  rfl

theorem footprint_of_extent (h : r'.extent = r.extent) :
    r'.storage.footprint = r.storage.footprint := by
  have hsize : r'.storage.size = r.storage.size := congrArg (fun x => x.2.2) h
  rw [HostBuffer.footprint, HostBuffer.footprint, hsize]

end ResultSet

namespace OutputBuffers

theorem extent_copyColumns (h : Heap) (d : Device) (storage : Address) (rows : ℕ) (columns : List ℕ)
    (r : ResultSet) : ((copyColumns h d storage rows columns).run r).2.extent = r.extent := by
  induction columns generalizing r with
  | nil => rfl
  | cons column rest ih =>
    rw [copyColumns, Action.run_bind, Action.run_step]
    cases r.checkView (r.columnOffset column + 8 * rows) with
    | error e => rfl
    | ok _ =>
      cases h.copyFrom d (storage.advance (r.columnOffset column)) (8 * rows) with
      | error e => rfl
      | ok bytes => exact ih (r.withBytes (r.columnOffset column) bytes)

theorem extent_copyBack (h : Heap) (d : Device) (rows : ℕ) (o : OutputBuffers) :
    ((copyBack h d rows).run o).2.result.extent = o.result.extent := by
  unfold Action.run copyBack
  cases o.mirror with
  | none => rfl
  | some mirror =>
    simp only
    split_ifs
    · rfl
    · exact extent_copyColumns h d mirror.storage rows _ o.result

theorem setUpMirror_reserves_nothing (o : OutputBuffers) (dims : LaunchDims) (s : Scope) :
    ((o.setUpMirror dims).run s).2.machine.budget = s.machine.budget ∧
      ((o.setUpMirror dims).run s).2.context.reserved = s.context.reserved ∧
      ∀ columns o', ((o.setUpMirror dims).run s).1 = .ok (columns, o') → o'.result = o.result := by
  have hfailed {e : Failure} (columns : Address) (o' : OutputBuffers)
      (h : (Except.error e : Except Failure (Address × OutputBuffers)) = .ok (columns, o')) :
      o'.result = o.result := by
    cases h
  cases hmirror : o.mirror with
  | some mirror =>
    rw [setUpMirror_again hmirror]
    exact ⟨rfl, rfl, hfailed⟩
  | none =>
    by_cases hsize : o.result.storageBytes ≤ o.result.storage.size
    · have hattempt := setUpMirror_attempt hmirror hsize dims s
      rcases hrun : (o.setUpMirror dims).run s with ⟨answer, s'⟩
      rw [hrun] at hattempt
      cases hattempt with
      | noDevice hsite => exact ⟨rfl, rfl, hfailed⟩
      | refused hsite hrefusal hnew hadds => exact ⟨hadds.budget, hadds.reserved, hfailed⟩
      | mirrored hsite hnew hadds hlaid =>
        refine ⟨hadds.budget, hadds.reserved, ?_⟩
        rintro columns o' ⟨⟩
        rfl
    · have hview : o.result.checkView o.result.storageBytes =
          .error (.viewOutOfRange o.result.storageBytes o.result.storage.size) := if_neg hsize
      have hends : (o.setUpMirror dims).run s =
          (.error (.viewOutOfRange o.result.storageBytes o.result.storage.size), s) := by
        rw [setUpMirror, hmirror, Action.run_bind, Action.run_check, hview]
      rw [hends]
      exact ⟨rfl, rfl, hfailed⟩

end OutputBuffers

namespace OutputSession

variable {t t' : OutputSession}

/-- What every step but a drop leaves as it was. -/
structure Retains (t t' : OutputSession) : Prop where
  budget : t'.machine.budget = t.machine.budget
  context : t'.context.map Context.reserved = t.context.map Context.reserved
  product : (t'.product.map fun p => p.resultSet.extent) = t.product.map fun p => p.resultSet.extent

theorem Retains.refl (t : OutputSession) : t.Retains t := ⟨rfl, rfl, rfl⟩

theorem retains_of_product {p p' : OutputProduct} (hp : t.product = some p)
    (hextent : p'.resultSet.extent = p.resultSet.extent) :
    t.Retains { t with product := some p' } where
  budget := rfl
  context := rfl
  product := by
    rw [hp, Option.map_some, Option.map_some, hextent]

theorem resultSet_withResult (p : OutputProduct) (r : ResultSet) :
    (p.withResult r).resultSet = r := by
  cases p <;> rfl

theorem retains_reading (f : ResultSet → Except Failure OutputAnswer) (t : OutputSession) :
    t.Retains ((reading f).run t).2 := .refl t

theorem retains_setEntries (rows : ℕ) (t : OutputSession) :
    t.Retains ((perform (.setEntries rows)).run t).2 := by
  rw [perform, Action.run_step]
  cases hp : t.product with
  | none => exact .refl t
  | some p =>
    cases hset : p.resultSet.setEntries rows with
    | error e =>
      simp only [hset]
      exact .refl t
    | ok r =>
      simp only [hset]
      apply retains_of_product hp
      rw [resultSet_withResult]
      exact ResultSet.extent_setEntries hset

theorem retains_store (s : Store) (t : OutputSession) :
    t.Retains ((perform (.store s)).run t).2 := by
  rw [perform, Action.run_step]
  rcases hp : t.product with _ | ⟨o⟩ | ⟨r⟩
  · exact .refl t
  · exact retains_of_product hp (o.result.extent_store s)
  · exact .refl t

theorem retains_setUpMirror (dims : LaunchDims) (t : OutputSession) :
    t.Retains ((perform (.setUpMirror dims)).run t).2 := by
  change t.Retains ((mirrored dims).run t).2
  unfold Action.run mirrored
  rcases hc : t.context with _ | c
  · exact .refl t
  rcases hp : t.product with _ | ⟨o⟩ | ⟨r⟩
  · exact .refl t
  · obtain ⟨hbudget, hreserved, hresult⟩ := o.setUpMirror_reserves_nothing dims ⟨c, t.machine⟩
    rcases hrun : (o.setUpMirror dims).run ⟨c, t.machine⟩ with ⟨e | ⟨columns, o'⟩, s⟩
    · rw [hrun] at hbudget hreserved
      simp only [hrun]
      refine ⟨hbudget, ?_, congrArg _ hp.symm⟩
      rw [hc, Option.map_some, Option.map_some, hreserved]
    · rw [hrun] at hbudget hreserved hresult
      simp only [hrun]
      refine ⟨hbudget, ?_, ?_⟩
      · rw [hc, Option.map_some, Option.map_some, hreserved]
      · rw [hp, Option.map_some, Option.map_some]
        exact congrArg (fun r => some r.extent) (hresult columns o' rfl)
  · exact .refl t

theorem retains_storeInMirror (column row : ℕ) (word : Word) (t : OutputSession) :
    t.Retains ((perform (.storeInMirror column row word)).run t).2 := by
  rw [perform, Action.run_step]
  unfold storeInMirror
  rcases hp : t.product with _ | ⟨result, _ | mirror⟩ | ⟨r⟩
  · exact .refl t
  · exact .refl t
  · cases hpoke : t.machine.heap.poke
        (mirror.storage.advance (result.columnOffset column + 8 * row)) word.bytes with
    | error e =>
      simp only [hpoke]
      exact .refl t
    | ok heap =>
      simp only [hpoke]
      exact ⟨rfl, rfl, congrArg _ hp.symm⟩
  · exact .refl t

theorem retains_copyBack (rows : ℕ) (d : Device) (t : OutputSession) :
    t.Retains ((perform (.copyBack rows d)).run t).2 := by
  rcases hp : t.product with _ | ⟨o⟩ | ⟨r⟩
  · change t.Retains ((copyBack rows d).run t).2
    unfold Action.run copyBack
    rw [hp]
    exact .refl t
  · rcases hrun : (OutputBuffers.copyBack t.machine.heap d rows).run o with ⟨answer, o'⟩
    rw [run_copyBack hp hrun]
    apply retains_of_product hp
    have hextent := OutputBuffers.extent_copyBack t.machine.heap d rows o
    rw [hrun] at hextent
    exact hextent
  · change t.Retains ((copyBack rows d).run t).2
    unfold Action.run copyBack
    rw [hp]
    exact .refl t

theorem retains_intoResult (t : OutputSession) : t.Retains ((perform .intoResult).run t).2 := by
  rw [perform, Action.run_step]
  rcases hp : t.product with _ | ⟨o⟩ | ⟨r⟩
  · exact .refl t
  · exact retains_of_product hp rfl
  · exact .refl t

theorem retains_perform {s : OutputStep} (hcontext : s ≠ .dropContext) (hproduct : s ≠ .drop)
    (t : OutputSession) : t.Retains ((perform s).run t).2 := by
  cases s with
  | info => exact retains_reading _ t
  | slots column => exact retains_reading _ t
  | integers column => exact retains_reading _ t
  | floats column => exact retains_reading _ t
  | setEntries rows => exact retains_setEntries rows t
  | store s => exact retains_store s t
  | setUpMirror dims => exact retains_setUpMirror dims t
  | storeInMirror column row word => exact retains_storeInMirror column row word t
  | copyBack rows d => exact retains_copyBack rows d t
  | dropContext => exact absurd rfl hcontext
  | intoResult => exact retains_intoResult t
  | drop => exact absurd rfl hproduct

/-- Bytes that the parts of a session have reserved. -/
def bytes (t : OutputSession) : ℕ :=
  (t.context.map Context.reserved).getD 0 +
    (t.product.map fun p => p.resultSet.storage.footprint).getD 0

theorem Retains.bytes (h : t.Retains t') : t'.bytes = t.bytes := by
  have hfootprint : (t'.product.map fun p => p.resultSet.storage.footprint) =
      t.product.map fun p => p.resultSet.storage.footprint := by
    have hextent := h.product
    rcases hp : t.product with _ | p <;> rcases hp' : t'.product with _ | p'
    · rfl
    · rw [hp, hp'] at hextent
      cases hextent
    · rw [hp, hp'] at hextent
      cases hextent
    · rw [hp, hp'] at hextent
      exact congrArg some (ResultSet.footprint_of_extent (Option.some.inj hextent))
  rw [OutputSession.bytes, OutputSession.bytes, h.context, hfootprint]

/-- What a step reserves or gives back is counted by the session itself: the bytes in use beside it
stay the same. -/
theorem perform_conserves (s : OutputStep) (t : OutputSession) :
    ((perform s).run t).2.machine.budget.inUse - BitVec.ofNat 64 ((perform s).run t).2.bytes =
      t.machine.budget.inUse - BitVec.ofNat 64 t.bytes := by
  by_cases hcontext : s = .dropContext
  · subst hcontext
    rw [perform, Action.run_step]
    cases hc : t.context with
    | none => rfl
    | some c =>
      simp only [bytes, hc, Context.budget_release, Budget.release, Option.map_some,
        Option.map_none, Option.getD_some, Option.getD_none, Nat.zero_add]
      rw [BitVec.sub_sub, ← BitVec.ofNat_add]
  by_cases hproduct : s = .drop
  · subst hproduct
    rw [perform, Action.run_step]
    cases hp : t.product with
    | none => rfl
    | some p =>
      simp only [bytes, hp, Machine.release, Budget.release, Option.map_some, Option.map_none,
        Option.getD_some, Option.getD_none, Nat.add_zero]
      rw [BitVec.sub_sub, ← BitVec.ofNat_add, Nat.add_comm]
  · have hretains := retains_perform hcontext hproduct t
    rw [hretains.bytes, hretains.budget]

def performed (t : OutputSession) (steps : List OutputStep) : OutputSession :=
  steps.foldl (fun t s => ((perform s).run t).2) t

theorem performed_conserves (t : OutputSession) (steps : List OutputStep) :
    (t.performed steps).machine.budget.inUse - BitVec.ofNat 64 (t.performed steps).bytes =
      t.machine.budget.inUse - BitVec.ofNat 64 t.bytes := by
  induction steps generalizing t with
  | nil => rfl
  | cons s rest ih => exact (ih _).trans (perform_conserves s t)

theorem product_perform {s : OutputStep} (h : s ≠ .drop) (t : OutputSession) :
    (((perform s).run t).2.product.map fun p => p.resultSet.extent) =
      t.product.map fun p => p.resultSet.extent := by
  by_cases hcontext : s = .dropContext
  · subst hcontext
    rw [perform, Action.run_step]
    cases t.context <;> rfl
  · exact (retains_perform hcontext h t).product

theorem product_drop (t : OutputSession) : ((perform .drop).run t).2.product = none := by
  rw [perform, Action.run_step]
  cases hp : t.product with
  | none => exact hp
  | some p => rfl

theorem context_perform {s : OutputStep} (h : s ≠ .dropContext) (t : OutputSession) :
    ((perform s).run t).2.context.map Context.reserved = t.context.map Context.reserved := by
  by_cases hproduct : s = .drop
  · subst hproduct
    rw [perform, Action.run_step]
    cases t.product <;> rfl
  · exact (retains_perform h hproduct t).context

theorem context_dropContext (t : OutputSession) :
    ((perform .dropContext).run t).2.context = none := by
  rw [perform, Action.run_step]
  cases hc : t.context with
  | none => exact hc
  | some c => rfl

/-- Only the drop of the product takes it away, and nothing changes its extent. -/
theorem product_performed (t : OutputSession) (steps : List OutputStep) :
    (.drop ∉ steps → ((t.performed steps).product.map fun p => p.resultSet.extent) =
      t.product.map fun p => p.resultSet.extent) ∧
    (.drop ∈ steps → (t.performed steps).product = none) := by
  induction steps generalizing t with
  | nil => exact ⟨fun _ => rfl, fun h => absurd h List.not_mem_nil⟩
  | cons s rest ih =>
    obtain ⟨hkept, hgone⟩ := ih ((perform s).run t).2
    constructor
    · intro hnone
      rw [List.mem_cons, not_or] at hnone
      exact (hkept hnone.2).trans (product_perform (Ne.symm hnone.1) t)
    · intro hdropped
      by_cases hrest : .drop ∈ rest
      · exact hgone hrest
      · obtain rfl := (List.mem_cons.mp hdropped).resolve_right hrest
        have hsame := hkept hrest
        rw [product_drop, Option.map_none, Option.map_eq_none_iff] at hsame
        exact hsame

theorem context_performed (t : OutputSession) (steps : List OutputStep) :
    (.dropContext ∉ steps →
      (t.performed steps).context.map Context.reserved = t.context.map Context.reserved) ∧
    (.dropContext ∈ steps → (t.performed steps).context = none) := by
  induction steps generalizing t with
  | nil => exact ⟨fun _ => rfl, fun h => absurd h List.not_mem_nil⟩
  | cons s rest ih =>
    obtain ⟨hkept, hgone⟩ := ih ((perform s).run t).2
    constructor
    · intro hnone
      rw [List.mem_cons, not_or] at hnone
      exact (hkept hnone.2).trans (context_perform (Ne.symm hnone.1) t)
    · intro hdropped
      by_cases hrest : .dropContext ∈ rest
      · exact hgone hrest
      · obtain rfl := (List.mem_cons.mp hdropped).resolve_right hrest
        have hsame := hkept hrest
        rw [context_dropContext, Option.map_none, Option.map_eq_none_iff] at hsame
        exact hsame

theorem run_getElem? {steps : List OutputStep} {t t' : OutputSession} {i : ℕ}
    {answer : Except Failure OutputAnswer} (h : (run steps t)[i]? = some (answer, t')) :
    t' = t.performed (steps.take (i + 1)) := by
  induction steps generalizing t i with
  | nil => cases h
  | cons s rest ih =>
    rw [run] at h
    rcases hrun : (perform s).run t with ⟨answer₁, t₁⟩
    have hfirst : t.performed (List.take 1 (s :: rest)) = t₁ := congrArg Prod.snd hrun
    have hnext : t.performed (s :: rest.take i) = t₁.performed (rest.take i) := by
      rw [performed, List.foldl_cons, hrun]
      rfl
    rw [hrun] at h
    simp only at h
    split_ifs at h
    · cases i with
      | zero =>
        cases h
        exact hfirst.symm
      | succ i => cases h
    · cases i with
      | zero =>
        cases h
        exact hfirst.symm
      | succ i =>
        rw [List.getElem?_cons_succ] at h
        rw [List.take_succ_cons, hnext]
        exact ih h

/-- What is left after some steps of output for `rows` rows of a plan, and of the context that it
was allocated for. Before the allocation the machine was `m`. -/
structure Stays (plan : Plan) (rows : ℕ) (c : Context) (m : Machine) (done : List OutputStep)
    (t : OutputSession) : Prop where
  /-- The storage of a result that has not been dropped is there and can be read. -/
  product : .drop ∉ done → ∃ p, t.product = some p ∧ p.resultSet.types = plan.outputTypes ∧
    p.resultSet.capacity = rows ∧
    p.resultSet.storage.footprint = 8 * (plan.outputs.length * rows) ∧
    ∀ column < plan.outputs.length, ∃ words, p.resultSet.slots column = .ok words ∧
      words.length = p.resultSet.entries
  gone : .drop ∈ done → t.product = none
  context : .dropContext ∉ done → ∃ c', t.context = some c' ∧ c'.reserved = c.reserved
  dropped : .dropContext ∈ done → t.context = none
  /-- The bytes in use are those of before, without those of the context, and those that the session
  still has. -/
  inUse : t.machine.budget.inUse =
    m.budget.inUse - BitVec.ofNat 64 c.reserved + BitVec.ofNat 64 t.bytes

/-- Any steps on a session over fresh output leave what they have not dropped. -/
theorem stays_performed {plan : Plan} {rows : ℕ} {o : OutputBuffers} {c : Context} {m : Machine}
    {t : OutputSession} (ho : o.Zeroed plan rows) (hproduct : t.product = some (.buffers o))
    (hcontext : t.context = some c)
    (hinUse : t.machine.budget.inUse = m.budget.more (8 * (plan.outputs.length * rows)))
    (done : List OutputStep) : Stays plan rows c m done (t.performed done) := by
  obtain ⟨hkept, hgone⟩ := product_performed t done
  obtain ⟨hheld, hdropped⟩ := context_performed t done
  refine ⟨?_, hgone, ?_, hdropped, ?_⟩
  · intro hnone
    have hextent := hkept hnone
    rw [hproduct, Option.map_some, Option.map_eq_some_iff] at hextent
    obtain ⟨p, hp, hextent⟩ := hextent
    have htypes : p.resultSet.types = plan.outputTypes := (congrArg Prod.fst hextent).trans ho.types
    have hcapacity : p.resultSet.capacity = rows :=
      (congrArg (fun x => x.2.1) hextent).trans ho.capacity
    have hfootprint : p.resultSet.storage.footprint = 8 * (plan.outputs.length * rows) :=
      (ResultSet.footprint_of_extent hextent).trans ho.footprint
    refine ⟨p, hp, htypes, hcapacity, hfootprint, ?_⟩
    intro column hcolumn
    have hcount : column < p.resultSet.columnCount := by
      rwa [ResultSet.columnCount, htypes, Plan.outputTypes, List.length_map]
    exact ⟨_, p.resultSet.slots_eq hcount, by simp⟩
  · intro hnone
    have hreserved := hheld hnone
    rwa [hcontext, Option.map_some, Option.map_eq_some_iff] at hreserved
  · have hbytes : t.bytes = c.reserved + 8 * (plan.outputs.length * rows) := by
      rw [bytes, hproduct, hcontext]
      exact congrArg (c.reserved + ·) ho.footprint
    have hconserved := performed_conserves t done
    rw [hinUse, hbytes, Budget.more, Nat.add_comm c.reserved, BitVec.ofNat_add, ← BitVec.sub_sub,
      BitVec.add_sub_cancel] at hconserved
    rw [← hconserved, BitVec.sub_add_cancel]

end OutputSession

namespace OutputRequest

/-- Output is allocated exactly if the request is admissible, the budget has room for a word in each
column for each row, and these are less than `2 ^ 63` bytes; for more of them, when there is room,
the program ends. The bytes are all that output takes: the context and the devices stay as they are.
The columns are zeros, all their rows count, and they are there, and reserved, until the result is
dropped. A request that is not served changes nothing, and one that passes the checks and is not too
large is turned down only by the budget. -/
theorem allocates_exactly {q : OutputRequest} {plan : Plan} {c : Context} {m : Machine}
    (hroom : 8 * (plan.outputs.length * q.rows) < sizeBound →
      m.budget.inUse.toNat + 8 * (plan.outputs.length * q.rows) < sizeBound) :
    ((∃ o s, (q.allocateColumns plan).run ⟨c, m⟩ = (.ok o, s)) ↔
      q.Admissible plan c ∧ m.HasBytes (8 * (plan.outputs.length * q.rows)) ∧
        8 * (plan.outputs.length * q.rows) < Word.signedBound) ∧
    (q.Admissible plan c → m.HasBytes (8 * (plan.outputs.length * q.rows)) →
      Word.signedBound ≤ 8 * (plan.outputs.length * q.rows) →
      (q.allocateColumns plan).run ⟨c, m⟩ = (.error .capacityOverflow, ⟨c, m⟩)) ∧
    (∀ e s, (q.allocateColumns plan).run ⟨c, m⟩ = (.error e, s) → s = ⟨c, m⟩ ∧
      (q.check plan c = .error e ∨ q.Admissible plan c ∧ ((∃ limit,
        e = .memoryLimitExceeded (8 * (plan.outputs.length * q.rows)) m.budget.inUse.toNat limit) ∨
        Word.signedBound ≤ 8 * (plan.outputs.length * q.rows) ∧ e = .capacityOverflow))) ∧
    ∀ o s, (q.allocateColumns plan).run ⟨c, m⟩ = (.ok o, s) →
      s.context = c ∧ s.machine.heap = m.heap ∧ s.machine.fetches = m.fetches ∧
      s.machine.budget.limit = m.budget.limit ∧
      s.machine.budget.inUse.toNat = m.budget.inUse.toNat + 8 * (plan.outputs.length * q.rows) ∧
      o.mirror = none ∧ o.result.types = plan.outputTypes ∧ o.result.capacity = q.rows ∧
      o.result.entries = q.rows ∧
      (∀ column < plan.outputs.length,
        o.result.slots column = .ok (List.replicate q.rows 0)) ∧
      ∀ steps i answer t,
        (OutputSession.run steps ⟨s.machine, some s.context, some (.buffers o)⟩)[i]? =
          some (answer, t) → OutputSession.Stays plan q.rows c m (steps.take (i + 1)) t := by
  have hends (hadmissible : q.Admissible plan c) {answer : Except Failure OutputBuffers} {s : Scope}
      (hrun : (q.allocateColumns plan).run ⟨c, m⟩ = (answer, s)) : q.Ends plan c m answer s := by
    have hends := allocateColumns_of_admissible (m := m) hadmissible
    rwa [hrun] at hends
  have hpasses {o : OutputBuffers} {s : Scope}
      (hrun : (q.allocateColumns plan).run ⟨c, m⟩ = (.ok o, s)) : q.Admissible plan c := by
    obtain ⟨⟨n, hcheck⟩, -⟩ := allocateColumns_ok hrun
    exact admissible_of_check (c := c) hcheck
  refine ⟨⟨?_, ?_⟩, ?_, ?_, ?_⟩
  · rintro ⟨o, s, hrun⟩
    have hadmissible := hpasses hrun
    cases hends hadmissible hrun with
    | allocated hadmits hsmall hzeroed hentries =>
      exact ⟨hadmissible, (Machine.admits_budget_iff (hroom hadmissible.size)).mp hadmits, hsmall⟩
  · rintro ⟨hadmissible, hbytes, hsmall⟩
    have hadmits := (Machine.admits_budget_iff (hroom hadmissible.size)).mpr hbytes
    rcases hrun : (q.allocateColumns plan).run ⟨c, m⟩ with ⟨answer, s⟩
    cases hends hadmissible hrun with
    | refused hfull => exact nomatch hadmits.symm.trans hfull
    | tooLarge _ hlarge => omega
    | allocated _ _ _ _ => exact ⟨_, _, rfl⟩
  · intro hadmissible hbytes hlarge
    have hadmits := (Machine.admits_budget_iff (hroom hadmissible.size)).mpr hbytes
    rcases hrun : (q.allocateColumns plan).run ⟨c, m⟩ with ⟨answer, s⟩
    cases hends hadmissible hrun with
    | refused hfull => exact nomatch hadmits.symm.trans hfull
    | tooLarge _ _ => rfl
    | allocated _ hsmall _ _ => omega
  · intro e s hrun
    obtain ⟨hsame, -⟩ := allocateColumns_error hrun
    refine ⟨hsame, ?_⟩
    rcases hcheck : q.check plan c with e' | n
    · refine Or.inl ?_
      have hfirst : (q.allocateColumns plan).run ⟨c, m⟩ = (.error e', ⟨c, m⟩) :=
        Action.run_bind_eq_error_iff.mpr (Or.inl (Action.run_check_eq_iff.mpr ⟨hcheck, rfl⟩))
      rw [hfirst] at hrun
      cases hrun
      rfl
    · have hadmissible := admissible_of_check hcheck
      refine Or.inr ⟨hadmissible, ?_⟩
      cases hends hadmissible hrun with
      | refused hfull => exact Or.inl ⟨_, rfl⟩
      | tooLarge _ hlarge => exact Or.inr ⟨hlarge, rfl⟩
  · intro o s hrun
    have hadmissible := hpasses hrun
    cases hends hadmissible hrun with
    | allocated _ _ hzeroed hentries =>
      refine ⟨rfl, rfl, rfl, rfl, toNat_add_ofNat (hroom hadmissible.size), hzeroed.mirror,
        hzeroed.types, hzeroed.capacity, hentries, ?_, ?_⟩
      · intro column hcolumn
        exact hzeroed.slots hentries hcolumn
      · intro steps i answer t hstep
        rw [OutputSession.run_getElem? hstep]
        exact OutputSession.stays_performed hzeroed rfl rfl rfl _

/-- A column of two words fits a budget of 16 bytes. They stay in use when the context is dropped,
and are given back with the result. A column of `2 ^ 60` words ends the program. -/
theorem allocates_exactly_two :
    let plan : Plan :=
      { name := "f", inputs := [], outputs := [⟨"x", .int .w64⟩], sizing := none }
    let q : OutputRequest :=
      { layout := .ofPlan plan, deviceId := 0, deviceType := .cpu, rows := 2, inputGroups := [[]],
        offsetGroups := [[]] }
    let c : Context := { site := .host }
    let m : Machine := { budget := { limit := some 16 } }
    (∃ o s t t', (q.allocateColumns plan).run ⟨c, m⟩ = (.ok o, s) ∧ o.result.slots 0 = .ok [0, 0] ∧
      (OutputSession.run [.dropContext, .drop] ⟨s.machine, some s.context, some (.buffers o)⟩)[0]? =
        some (.ok .done, t) ∧
      (OutputSession.run [.dropContext, .drop] ⟨s.machine, some s.context, some (.buffers o)⟩)[1]? =
        some (.ok .done, t') ∧
      t.machine.budget.inUse = 16 ∧ t'.machine.budget.inUse = 0) ∧
    ({ q with rows := 2 ^ 60 }.allocateColumns plan).run ⟨c, {}⟩ =
      (.error .capacityOverflow, ⟨c, {}⟩) := by
  intro plan q c m
  have hroom : 8 * (plan.outputs.length * q.rows) < sizeBound →
      m.budget.inUse.toNat + 8 * (plan.outputs.length * q.rows) < sizeBound := by decide
  obtain ⟨hiff, -, -, hok⟩ := allocates_exactly hroom (c := c)
  have hadmissible : q.Admissible plan c :=
    ⟨rfl, by decide, rfl, rfl, rfl, rfl, nofun, by decide⟩
  have hbytes : m.HasBytes (8 * (plan.outputs.length * q.rows)) := by
    rintro limit ⟨⟩
    decide
  refine ⟨?_, (allocates_exactly (q := { q with rows := 2 ^ 60 }) (fun _ => by decide)).2.1
    ⟨rfl, by decide, rfl, rfl, rfl, rfl, nofun, by decide⟩ nofun (by decide)⟩
  obtain ⟨o, s, hrun⟩ := hiff.mpr ⟨hadmissible, hbytes, by decide⟩
  obtain ⟨hcontext, -, -, -, -, -, -, -, -, hslots, hstays⟩ := hok o s hrun
  have hfirst := hstays [.dropContext, .drop] 0 (.ok .done) _ rfl
  have hsecond := hstays [.dropContext, .drop] 1 (.ok .done) _ rfl
  obtain ⟨p, hp, -, -, hfootprint, -⟩ := hfirst.product (by simp)
  refine ⟨o, s, _, _, hrun, hslots 0 (by decide), rfl, rfl, ?_, ?_⟩
  · rw [hfirst.inUse, OutputSession.bytes, hfirst.dropped (by simp), hp, Option.map_some,
      hfootprint]
    simp [m, c, q, plan, Context.reserved]
  · rw [hsecond.inUse, OutputSession.bytes, hsecond.dropped (by simp), hsecond.gone (by simp)]
    simp [m, c, Context.reserved]

end OutputRequest

end KernelDispatch
