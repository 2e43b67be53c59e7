import KernelDispatch.Proofs.Workbench.Steps

/-!
# Resources are accounted for over arbitrary histories

An inventory tells from the steps and their answers alone what was acquired and has not been given
back. After any steps on an empty machine the bytes in use and the live allocations of each device
are those of the inventory, and both are within their limits.
-/

namespace KernelDispatch

variable {hostLimit : Option ℕ} {limits : ℕ → Option ℕ}

/-- What is held under a handle. Only a column can be moved into a context. -/
structure Item where
  load : Load
  isColumn : Bool := false

/-- What was acquired and has not been given back. -/
structure Inventory where
  held : List (Option Item) := []
  contexts : List (Option (Site × Load)) := []
  /-- For each allocation that was handed out directly, the slot of its device until it is freed. -/
  pointers : List (Option ℕ) := []

namespace Inventory

variable (I : Inventory)

def keep (x : Item) : Inventory := { I with held := I.held ++ [some x] }

def charge (i : ℕ) (load : Site → Load) : Inventory :=
  { I with contexts := I.contexts.modify i (Option.map fun c => (c.1, c.2 + load c.1)) }

/-- A column goes from its handle to a context with what was taken for it. -/
def move (i j : ℕ) : Inventory :=
  match I.held[j]?.join, I.contexts[i]?.join with
  | some ⟨load, true⟩, some _ => { I.charge i fun _ => load with held := I.held.set j none }
  | _, _ => I

/-- What is taken for a column, from a store that serves columns on this device. -/
def columnLoad (served : Option Device) : MemoryLevel → Load
  | .host => 0
  | .device => (0, served.elim 0 fun d => {d.slot})

/-- The inventory after a step that has not failed. -/
def enter (served : Option Device) : MemoryStep → Inventory
  | .reserve n => I.keep { load := (n, 0) }
  | .newBuffer size => I.keep { load := (8 * slotsFor size, 0) }
  | .drop i => { I with held := I.held.set i none }
  | .openContext site => { I with contexts := I.contexts ++ [some (site, 0)] }
  | .dropContext i => { I with contexts := I.contexts.set i none }
  | .fetch _ level _ => I.keep { load := columnLoad served level, isColumn := true }
  | .borrow i j => I.move i j
  | .alloc d _ => { I with pointers := I.pointers ++ [some d.slot] }
  | .free i 0 => { I with pointers := I.pointers.set i none }
  | s => s.demand?.elim I fun x => I.charge x.1 fun site => (x.2 site).load

/-- The inventory after a step with this answer. -/
def record (served : Option Device) (I : Inventory) :
    MemoryStep × Except Failure MemoryAnswer → Inventory
  | (s, .ok _) => I.enter served s
  | (_, .error _) => I

def load : Load :=
  (I.held.map (·.elim 0 Item.load)).sum + (I.contexts.map (·.elim 0 Prod.snd)).sum +
    (I.pointers.map (·.elim 0 fun slot => (0, {slot}))).sum

def bytes : ℕ := I.load.1

def allocationsOn (d : Device) : ℕ := I.load.2.count d.slot

variable {I} {served : Option Device} {s : MemoryStep}

theorem enter_of_isReading (h : s.isReading = true) : I.enter served s = I := by
  cases s with
  | free i offset =>
    cases offset with
    | zero => cases h
    | succ n => rfl
  | _ => first | rfl | cases h

theorem enter_of_demand {i : ℕ} {demand : Site → Demand} (h : s.demand? = some (i, demand)) :
    I.enter served s = I.charge i fun site => (demand site).load := by
  cases s <;> cases h <;> rfl

theorem modify_of_join {α : Type} {l : List (Option α)} {i : ℕ} (f : α → α)
    (h : l[i]?.join = none) : l.modify i (Option.map f) = l := by
  apply List.ext_getElem?
  intro k
  by_cases hk : i = k
  · subst hk
    rw [List.getElem?_modify_eq]
    rcases hi : l[i]? with _ | _ | a
    · rfl
    · rfl
    · rw [hi] at h
      cases h
  · rw [List.getElem?_modify_ne _ _ hk]

end Inventory

def Held.item : Held → Item
  | .column c => { load := (Held.column c).estate.load, isColumn := true }
  | x => { load := x.estate.load }

theorem Held.load_item (x : Held) : x.item.load = x.estate.load := by cases x <;> rfl

namespace Workbench

variable {w w' : Workbench} {s : MemoryStep} {answer : MemoryAnswer}

def inventory (w : Workbench) : Inventory where
  held := w.held.map (·.map Held.item)
  contexts := w.contexts.map (·.map fun c => (c.site, c.estate.load))
  pointers := w.pointers.map fun p => if p.live then some p.device.slot else none

theorem load_inventory (w : Workbench) : w.inventory.load = w.estate.load := by
  have hheld (x : Option Held) :
      (x.map Held.item).elim 0 Item.load = (x.elim 0 Held.estate).load := by
    cases x with
    | none => rfl
    | some x => exact x.load_item
  have hcontexts (c : Option Context) :
      (c.map fun c => (c.site, c.estate.load)).elim 0 Prod.snd =
        (c.elim 0 Context.estate).load := by
    cases c <;> rfl
  have hpointers (p : Pointer) :
      (if p.live then some p.device.slot else none).elim 0 (fun slot => ((0, {slot}) : Load)) =
        p.estate.load := by
    unfold Pointer.estate
    cases p.live <;> rfl
  simp only [Inventory.load, inventory, estate, heldEstate, contextsEstate, pointersEstate, map_add,
    map_list_sum, List.map_map, Function.comp_def, hheld, hcontexts, hpointers]

section Places

variable {i j : ℕ} {c c' : Context} {m : Machine}

theorem join_held : w.inventory.held[j]?.join = (w.held? j).map Held.item := by
  rw [held?, inventory, List.getElem?_map]
  cases w.held[j]? <;> rfl

theorem join_contexts :
    w.inventory.contexts[i]?.join = (w.context? i).map fun c => (c.site, c.estate.load) := by
  rw [context?, inventory, List.getElem?_map]
  cases w.contexts[i]? <;> rfl

theorem inventory_keep (x : Held) :
    ({ w with machine := m }.keep x).inventory = w.inventory.keep x.item := by
  simp [inventory, Workbench.keep, Inventory.keep]

theorem inventory_setHeld (w : Workbench) (y : Option Held) :
    ({ w with machine := m, held := w.held.set i y } : Workbench).inventory =
      { w.inventory with held := w.inventory.held.set i (y.map Held.item) } := by
  simp only [inventory, List.map_set]

theorem inventory_write (w : Workbench) {b : HostBuffer} (offset : ℕ) (src : Bytes)
    (hb : w.held? i = some (.buffer b)) :
    ({ w with held := w.held.set i (some (.buffer (b.write offset src))) } : Workbench).inventory =
      w.inventory := by
  have hheld : w.inventory.held[i]? = some (some (Held.buffer b).item) := by
    simp [inventory, Option.join_eq_some_iff.mp hb]
  have hset := w.inventory_setHeld (i := i) (m := w.machine) (some (.buffer (b.write offset src)))
  rw [hset]
  exact congrArg (fun held => { w.inventory with held }) (set_of_getElem? hheld)

theorem inventory_charge {load : Site → Load} (hc : w.context? i = some c)
    (hsite : c'.site = c.site) (hload : c'.estate.load = c.estate.load + load c.site) :
    ({ w with machine := m, contexts := w.contexts.set i (some c') } : Workbench).inventory =
      w.inventory.charge i load := by
  have hcontexts : (w.contexts.set i (some c')).map
        (Option.map fun c => (c.site, c.estate.load)) =
      (w.contexts.map (Option.map fun c => (c.site, c.estate.load))).modify i
        (Option.map fun c => (c.1, c.2 + load c.1)) := by
    apply List.ext_getElem?
    intro k
    by_cases hk : i = k
    · subst hk
      obtain ⟨hi, hci⟩ := List.getElem?_eq_some_iff.mp (Option.join_eq_some_iff.mp hc)
      simp [hci, hi, hsite, hload]
    · rw [List.getElem?_modify_ne _ _ hk, List.getElem?_map, List.getElem?_set_ne hk,
        List.getElem?_map]
  simp only [inventory, Inventory.charge, hcontexts]

theorem inventory_borrow {column : FetchedColumn}
    (hcolumn : w.held? j = some (.column column)) (hc : w.context? i = some c) :
    ({ w with
      held := w.held.set j none
      contexts := w.contexts.set i (some (c.hold (.borrowed column))) } : Workbench).inventory =
      w.inventory.move i j := by
  have hload : (c.hold (.borrowed column)).estate.load =
      c.estate.load + (Held.column column).estate.load := by
    rw [Context.estate_hold, map_add]
    rfl
  let w₁ : Workbench := { w with held := w.held.set j none }
  have hcharged : ({ w₁ with
        contexts := w.contexts.set i (some (c.hold (.borrowed column))) } : Workbench).inventory =
      w₁.inventory.charge i fun _ => (Held.column column).estate.load :=
    inventory_charge (w := w₁) (m := w.machine) hc rfl hload
  rw [w.inventory_setHeld none] at hcharged
  rw [Inventory.move, join_held, join_contexts, hcolumn, hc]
  exact hcharged

end Places

theorem load_of_fetch {S : ColumnStore} {ref : ColumnRef} {level : MemoryLevel} {id : DeviceId}
    {column : FetchedColumn} {m m' : Machine}
    (h : (S.fetch ref level id).run m = (.ok column, m')) :
    (Held.column column).estate.load = Inventory.columnLoad S.device level := by
  obtain ⟨source, site⟩ := column
  cases level with
  | host =>
    have hserved : S.ServedAt ⟨source, site⟩ .host := (ColumnStore.fetch_served h).2
    cases hserved
    rfl
  | device =>
    obtain ⟨-, hat⟩ := ColumnStore.look_eq_ok_iff.mp (ColumnStore.fetch_ok h).1
    obtain ⟨d, hd, -⟩ := hat rfl
    have hserved : S.ServedAt ⟨source, site⟩ (.device d) := (ColumnStore.fetch_served h).2
    obtain ⟨served, a, hserved, hplace⟩ := hserved
    cases hplace
    rw [Inventory.columnLoad, hserved]
    rfl

theorem enter_of_lacks {served : Option Device} (hlacks : w.Lacks s) :
    w.inventory.enter served s = w.inventory := by
  have hcontext {i : ℕ} (h : w.context? i = none) : w.inventory.contexts[i]?.join = none := by
    rw [join_contexts, h]
    rfl
  have hcharge {i : ℕ} {load : Site → Load} (h : w.context? i = none) :
      w.inventory.charge i load = w.inventory := by
    rw [Inventory.charge, Inventory.modify_of_join _ (hcontext h)]
  cases s with
  | drop i =>
    have hnone : w.inventory.held[i]?.join = none := by
      rw [join_held, show w.held? i = none from hlacks]
      rfl
    simp only [Inventory.enter, set_none_of_join hnone]
  | dropContext i => simp only [Inventory.enter, set_none_of_join (hcontext hlacks)]
  | borrow i j =>
    rw [Inventory.enter, Inventory.move, join_held, join_contexts]
    cases hj : w.held? j with
    | none => rfl
    | some x =>
      cases x with
      | reservation n => rfl
      | buffer b => rfl
      | column column =>
        cases hi : w.context? i with
        | none => rfl
        | some c => exact absurd hi (hlacks column c hj)
  | free i offset =>
    cases offset with
    | succ n => rfl
    | zero =>
      have hlength : w.inventory.pointers.length ≤ i := by
        rw [inventory, List.length_map]
        exact List.getElem?_eq_none_iff.mp hlacks
      simp only [Inventory.enter, List.set_eq_of_length_le hlength]
  | allocHost i n | allocDevice i n | allocDeviceWith i n src | literal i value
  | literalBytes i bytes => rw [Inventory.enter_of_demand rfl, hcharge hlacks]
  | write i offset src | inspect i | copyTo i offset src | copyFrom i offset len => rfl
  | _ => exact hlacks.elim

/-- The inventory after a step is that of the workbench, whatever the step has done. -/
theorem enter_does (hdoes : w.Does s answer w') :
    w.inventory.enter w.store.device s = w'.inventory := by
  cases hdoes with
  | nothing hlacks => exact enter_of_lacks hlacks
  | reads hs => exact Inventory.enter_of_isReading hs
  | reserve hm =>
    rw [inventory_keep]
    rfl
  | newBuffer hnew =>
    rw [inventory_keep, (Machine.newBuffer_ok hnew).1]
    rfl
  | write hb =>
    rw [← w.inventory_write _ _ hb]
    rfl
  | drop hx => exact (w.inventory_setHeld none).symm
  | openContext => simp [Inventory.enter, inventory, Context.estate_empty]
  | dropContext hc => simp only [Inventory.enter, inventory, List.map_set]; rfl
  | acquire hinitial hc hdemand hacquires =>
    obtain ⟨a, new, t, hgains, -, -, -, -, hload⟩ := hacquires
    rw [Inventory.enter_of_demand hdemand]
    refine (inventory_charge hc ?_ ?_).symm
    · rw [hgains.context]
      rfl
    · rw [hgains.context, Context.estate_hold, map_add, hload]
  | fetch hfetch =>
    rw [inventory_keep, Held.item, load_of_fetch hfetch]
    rfl
  | borrow hcolumn hc => exact (inventory_borrow hcolumn hc).symm
  | alloc halloc => simp [Inventory.enter, inventory]
  | free hp => simp [Inventory.enter, inventory, Workbench.free, List.map_set]
  | copyTo hp hcopy => rfl

theorem record_step (w : Workbench) (s : MemoryStep) :
    Inventory.record w.store.device w.inventory (s, (w.step s).1) = (w.step s).2.inventory := by
  rcases w.step_cases s with ⟨answer, hanswer, hdoes⟩ | ⟨e, hanswer, hsame, -⟩
  · rw [hanswer]
    exact enter_does hdoes
  · rw [hanswer, hsame]
    rfl

/-- The inventories before each of the steps and after the last are told from the steps and their
answers. -/
theorem scanl_record (steps : List MemoryStep) (w : Workbench) :
    (steps.zip ((run steps w).map (·.1))).scanl (Inventory.record w.store.device) w.inventory =
      (w :: (run steps w).map (·.2)).map inventory := by
  induction steps generalizing w with
  | nil => rfl
  | cons s rest ih =>
    have hstore : (w.step s).2.store = w.store := w.store_step s
    have hrest := ih (w.step s).2
    rw [hstore] at hrest
    simp only [run, List.map_cons, List.zip_cons_cons, List.scanl_cons, record_step, hrest]

theorem bytes_inventory (w : Workbench) : w.inventory.bytes = w.estate.1 := by
  rw [Inventory.bytes, load_inventory]
  rfl

theorem allocationsOn_inventory (w : Workbench) (d : Device) :
    w.inventory.allocationsOn d = w.estate.2.countP (·.1 = d.slot) := by
  rw [Inventory.allocationsOn, load_inventory]
  change (w.estate.2.map Prod.fst).count d.slot = _
  rw [Multiset.count_map, Multiset.countP_eq_card_filter]
  simp only [eq_comm]

namespace Sound

theorem step {s : MemoryStep} (h : w.Sound hostLimit limits)
    (hbound : w.inventory.bytes < sizeBound) (hs : s.devices ⊆ limitedBy limits)
    (hfreed : s.freed?.any w.strays = false) : (w.step s).2.Sound hostLimit limits := by
  rcases w.step_cases s with ⟨answer, -, hdoes⟩ | ⟨e, -, hsame, -⟩
  · rw [bytes_inventory] at hbound
    exact h.does hbound hs hfreed hdoes
  · rw [hsame]
    exact h

theorem run {steps : List MemoryStep} (h : w.Sound hostLimit limits)
    (hsteps : ∀ s ∈ steps, s.devices ⊆ limitedBy limits)
    (hfreed : ∀ p ∈ (w :: (Workbench.run steps w).map (·.2)).zip steps,
      p.2.freed?.any p.1.strays = false)
    (hbounds : ∀ w' ∈ w :: (Workbench.run steps w).map (·.2), w'.inventory.bytes < sizeBound) :
    ∀ w' ∈ w :: (Workbench.run steps w).map (·.2), w'.Sound hostLimit limits := by
  induction steps generalizing w with
  | nil =>
    intro w' hw'
    rw [List.mem_singleton.mp hw']
    exact h
  | cons s rest ih =>
    have hstep := h.step (hbounds w List.mem_cons_self) (hsteps s List.mem_cons_self)
      (hfreed (w, s) List.mem_cons_self)
    have hrest := ih hstep (fun t ht => hsteps t (List.mem_cons_of_mem s ht))
      (fun p hp => hfreed p (List.mem_cons_of_mem _ hp))
      (fun w' hw' => hbounds w' (List.mem_cons_of_mem w hw'))
    intro w' hw'
    rcases List.mem_cons.mp hw' with rfl | hlater
    · exact h
    · exact hrest w' hlater

theorem start {store : ColumnStore} (hstore : ∀ d, store.device = some d → d ∈ limitedBy limits) :
    Workbench.Sound hostLimit limits
      { store, machine := { budget := { limit := hostLimit } } } where
  machine := ⟨⟨rfl, rfl⟩, ⟨rfl, fun _ _ => Nat.zero_le _, fun _ _ _ => Nat.zero_le _⟩⟩
  sites _ hc := absurd hc List.not_mem_nil
  store := hstore

theorem reserve_zero (h : w.Sound hostLimit limits) :
    (w.step (.reserve 0)).1 = .ok (.size 0) := by
  have hmore : w.machine.budget.more 0 = w.machine.budget.inUse := BitVec.add_zero _
  have hadmits : w.machine.budget.admits 0 = true := by
    rw [Budget.admits, hmore, h.machine.within.limit]
    cases hlimit : hostLimit with
    | none => rfl
    | some most => simpa using h.machine.within.bytes most hlimit
  have hreserve : w.machine.reserve 0 = .ok _ :=
    bind_eq_ok_iff.mpr ⟨_, (Budget.reserve_eq_ok_iff _).mpr ⟨hadmits, rfl⟩, rfl⟩
  have hrun : (onMachine (Action.attempt (·.reserve 0))).run w = (.ok (), _) :=
    run_onMachine_eq_iff.mpr ⟨_, Action.run_attempt_eq_ok_iff.mpr hreserve, rfl⟩
  rw [Workbench.step, perform, Action.run_bind, hrun]
  rfl

end Sound

/-- Whatever is done on an empty machine, as long as sums stay within words: bytes in use and live
allocations are those that were acquired and not given back, as the steps and their answers tell,
and within the limits; reserving nothing succeeds; and a step that fails changes nothing, having
acquired nothing. Only an address that a device has given away again must not be freed through the
pointer that was freed before. -/
theorem resources_accounted (store : ColumnStore) (hostLimit : Option ℕ) (limits : ℕ → Option ℕ)
    (steps : List MemoryStep) (hstore : ∀ d, store.device = some d → d ∈ limitedBy limits)
    (hsteps : ∀ s ∈ steps, s.devices ⊆ limitedBy limits) :
    let start : Workbench := { store, machine := { budget := { limit := hostLimit } } }
    let visited := start :: (run steps start).map (·.2)
    let told := (steps.zip ((run steps start).map (·.1))).scanl (Inventory.record store.device) {}
    (∀ I ∈ told, I.bytes < sizeBound) →
    (∀ p ∈ visited.zip steps, p.2.freed?.any p.1.strays = false) →
    visited.length = told.length ∧ ∀ p ∈ visited.zip told,
      p.1.machine.budget.inUse.toNat = p.2.bytes ∧
      (∀ d, p.1.machine.heap.live d = p.2.allocationsOn d) ∧
      p.1.machine.budget.limit = hostLimit ∧
      (∀ most, hostLimit = some most → p.1.machine.budget.inUse.toNat ≤ most) ∧
      (∀ d : Device, ∀ most, limits d.slot = some most → p.1.machine.heap.live d ≤ most) ∧
      (p.1.step (.reserve 0)).1 = .ok (.size 0) ∧
      ∀ s e, (p.1.step s).1 = .error e → (p.1.step s).2 = p.1 ∧ s.givesBack = false ∧
        (e.isAccess = true → s.isAccess = true) := by
  intro start visited told hbounds hfreed
  have htold : told = visited.map inventory := scanl_record steps start
  have hvisited : ∀ w ∈ visited, w.Sound hostLimit limits := by
    refine Sound.run (Sound.start hstore) hsteps hfreed fun w hw => hbounds _ ?_
    rw [htold]
    exact List.mem_map_of_mem hw
  refine ⟨by rw [htold, List.length_map], ?_⟩
  rintro ⟨w, I⟩ hp
  have hzip : (w, I) ∈ visited.zip (visited.map inventory) := htold ▸ hp
  obtain ⟨hw, hI⟩ := mem_zip_map hzip
  have hsound := hvisited w hw
  have hbound : w.estate.1 < sizeBound := by
    rw [← bytes_inventory, ← hI]
    exact hbounds I (List.of_mem_zip hp).2
  subst hI
  refine ⟨?_, fun d => ?_, hsound.machine.within.limit, hsound.machine.within.bytes,
    hsound.machine.within.slots, hsound.reserve_zero, fun s e he => ?_⟩
  · rw [hsound.machine.accounts.toNat_inUse hbound, bytes_inventory]
  · rw [hsound.machine.accounts.live, allocationsOn_inventory]
  · obtain ⟨hsame, hfails⟩ := step_error he
    exact ⟨hsame, hfails.givesBack, hfails.access⟩

/-- A device for two allocations refuses the third until a pointer is freed; freed once more, the
pointer frees nothing. What a context held is given back when it is dropped. -/
theorem resources_accounted_two :
    let d : Device := { slot := 0, id := 0, maxLive := some 2 }
    let store : ColumnStore := { columns := [(0, ⟨[1, 2], 2⟩)], device := some d }
    let start : Workbench := { store, machine := { budget := { limit := some 20 } } }
    let steps : List MemoryStep := [.reserve 5, .newBuffer 3, .openContext (.device d), .alloc d 4,
      .allocDevice 0 8, .alloc d 4, .free 0 0, .free 0 0, .fetch ⟨0, 0, .boolean⟩ .device 0,
      .borrow 0 2, .drop 0, .drop 2, .dropContext 0]
    let visited := start :: (run steps start).map (·.2)
    let told := (steps.zip ((run steps start).map (·.1))).scanl (Inventory.record store.device) {}
    told.map (·.bytes) = [0, 5, 13, 13, 13, 13, 13, 13, 13, 13, 13, 8, 8, 8] ∧
      told.map (·.allocationsOn d) = [0, 0, 0, 0, 1, 2, 2, 1, 1, 2, 2, 2, 2, 0] ∧
      (run steps start).map (·.1.isOk) =
        [true, true, true, true, true, false, true, true, true, true, true, true, true] ∧
      ∀ p ∈ visited.zip told, p.1.machine.budget.inUse.toNat = p.2.bytes ∧
        p.1.machine.heap.live d = p.2.allocationsOn d := by
  intro d store start steps visited told
  have hstore : ∀ d', store.device = some d' → d' ∈ limitedBy fun _ => some 2 := by
    rintro d' ⟨⟩
    rfl
  have hsteps : ∀ s ∈ steps, s.devices ⊆ limitedBy fun _ => some 2 := by
    simp [steps, MemoryStep.devices, limitedBy, d]
  have hbytes : told.map (·.bytes) = [0, 5, 13, 13, 13, 13, 13, 13, 13, 13, 13, 8, 8, 8] := by
    decide +kernel
  have hbounds : ∀ I ∈ told, I.bytes < sizeBound := by
    intro I hI
    have hmem := List.mem_map_of_mem (f := Inventory.bytes) hI
    rw [hbytes] at hmem
    exact (by decide : ∀ n ∈ [0, 5, 13, 13, 13, 13, 13, 13, 13, 13, 13, 8, 8, 8], n < sizeBound)
      _ hmem
  have hfreed : ∀ p ∈ visited.zip steps, p.2.freed?.any p.1.strays = false := by
    have hnone : (visited.zip steps).all (fun p => !p.2.freed?.any p.1.strays) = true := by
      decide +kernel
    intro p hp
    simpa using List.all_eq_true.mp hnone p hp
  refine ⟨hbytes, by decide +kernel, by decide +kernel, fun p hp => ?_⟩
  obtain ⟨-, haccounted⟩ :=
    resources_accounted store (some 20) (fun _ => some 2) steps hstore hsteps hbounds hfreed
  obtain ⟨hinUse, hlive, -⟩ := haccounted p hp
  exact ⟨hinUse, hlive d⟩

end Workbench

end KernelDispatch
