import KernelDispatch.Proofs.Workbench.Performed
import KernelDispatch.Proofs.Workbench.Places

/-!
# How a step changes what can be read

Whatever a step does, it changes what is at the places of a workbench in one of six ways: not at
all, by something new at a new place, by taking things away together with their blocks, by moving a
column, by a write to host memory, or by a write to one block. This is told from what the step does
alone, before anything is known of the workbench.
-/

namespace KernelDispatch

theorem filter_of_key? (blocks : List Block) (key? : Option (ℕ × ℕ)) :
    blocks.filter (fun b => key? != some b.key) = blocks.filter (·.key ∉ key?.toList) := by
  apply List.filter_congr
  intro b _
  cases key? with
  | none => rfl
  | some key =>
    rw [Bool.eq_iff_iff, bne_iff_ne, decide_eq_true_iff, Option.toList_some, List.mem_singleton,
      ne_eq, Option.some.injEq]
    exact not_congr eq_comm

theorem Held.blocks_release (x : Held) (m : Machine) : (x.release m).heap.blocks =
    m.heap.blocks.filter (·.key ∉ (x.thing?.bind Thing.key?).toList) := by
  cases x with
  | reservation n => simp [release, Machine.release, thing?]
  | buffer b => simp [release, Machine.release, thing?, Thing.key?]
  | column c =>
    have hfreed := (Context.drop_eq .host (.borrowed c) m).1
    rw [filter_of_key?] at hfreed
    exact hfreed

namespace Workbench

/-- Something that shows these bytes has come to a place where nothing was. -/
structure Gain (w : Workbench) (p : Place) (t : Thing) (bs : Bytes) (w' : Workbench) : Prop where
  fresh : w.thing? p = none
  things : ∀ q, w'.thing? q = if q = p then some t else w.thing? q
  blocks : ∃ new, w'.machine.heap.blocks = new ++ w.machine.heap.blocks ∧
    ∀ key, t.key? = some key → key ∈ new.map Block.key
  shows : t.Shows w'.machine.heap.blocks bs

/-- Nothing at the place has room for a write: what is there is too short, or cannot be written. -/
def Refuses (w : Workbench) (p : Place) (offset len : ℕ) : Prop :=
  ∀ t, w.thing? p = some t →
    match t with
    | .buffer _ => False
    | .block d a => ∀ b ∈ w.machine.heap.blocks, b.key = (d.slot, a.value) →
        b.bytes.length < offset + len
    | .column _ => True

/-- How a step changes what can be read. -/
inductive Change (w : Workbench) (s : ContextStep) (w' : Workbench) : Prop
  | idle (things : w'.thing? = w.thing?)
      (blocks : w'.machine.heap.blocks = w.machine.heap.blocks)
      (refused : ∀ p offset src, s.target? = some (p, offset, src) → w.Refuses p offset src.length)
  | gain (p : Place) (t : Thing) (bs : Bytes) (gain : w.Gain p t bs w') (target : s.target? = none)
  | drop (keys : List (ℕ × ℕ))
      (things : ∀ q, w'.thing? q = if s.removes q then none else w.thing? q)
      (blocks : w'.machine.heap.blocks = w.machine.heap.blocks.filter (·.key ∉ keys))
      (owned : ∀ key ∈ keys, ∃ q t, s.removes q = true ∧ w.thing? q = some t ∧ t.key? = some key)
      (target : s.target? = none)
  | move (p q : Place) (t : Thing) (here : w.thing? p = some t) (fresh : w.thing? q = none)
      (removed : s.removes p = true)
      (things : ∀ r, w'.thing? r = if r = q then some t else if r = p then none else w.thing? r)
      (blocks : w'.machine.heap.blocks = w.machine.heap.blocks) (target : s.target? = none)
  | write (p : Place) (b : HostBuffer) (offset : ℕ) (src : Bytes)
      (here : w.thing? p = some (.buffer b))
      (things : ∀ q,
        w'.thing? q = if q = p then some (.buffer (b.write offset src)) else w.thing? q)
      (blocks : w'.machine.heap.blocks = w.machine.heap.blocks)
      (target : s.target? = some (p, offset, src))
  | copy (p : Place) (d : Device) (a : Address) (offset : ℕ) (src : Bytes)
      (newer older : List Block) (b : Block) (here : w.thing? p = some (.block d a))
      (things : w'.thing? = w.thing?) (key : b.key = (d.slot, a.value))
      (before : w.machine.heap.blocks = newer ++ b :: older)
      (blocks : w'.machine.heap.blocks =
        newer ++ { b with bytes := overwrite b.bytes offset src } :: older)
      (target : s.target? = some (p, offset, src))

section Change

variable {w w' : Workbench} {s : MemoryStep} {i j k n offset : ℕ} {c : Context} {src : Bytes}
  {answer : MemoryAnswer} {e : Failure}

theorem Change.none {s : ContextStep} (htarget : s.target? = .none) : Change w s w :=
  .idle rfl rfl fun _ _ _ h => nomatch htarget.symm.trans h

theorem Change.refused {s : ContextStep} {p : Place} (htarget : s.target? = some (p, offset, src))
    (h : w.Refuses p offset src.length) : Change w s w := by
  refine .idle rfl rfl fun p' offset' src' htarget' => ?_
  cases htarget.symm.trans htarget'
  exact h

theorem refuses_of_none {p : Place} (h : w.thing? p = .none) : w.Refuses p offset n :=
  fun _ ht => nomatch h.symm.trans ht

theorem refuses_of_column {p : Place} {column : FetchedColumn}
    (h : w.thing? p = some (.column column)) : w.Refuses p offset n := by
  intro t ht
  cases h.symm.trans ht
  exact True.intro

/-- A write through a pointer changes the block that starts there, or finds it too short. -/
theorem copyInto_cases (w : Workbench) (p : Pointer) (offset : ℕ) (src : Bytes) :
    (∃ m newer b older, w.copyInto p offset src = .ok m ∧
      b.key = (p.device.slot, p.address.value) ∧ w.machine.heap.blocks = newer ++ b :: older ∧
      m.heap.blocks = newer ++ { b with bytes := overwrite b.bytes offset src } :: older) ∨
    (∃ e, w.copyInto p offset src = .error e) ∧ ∀ b ∈ w.machine.heap.blocks,
      b.key = (p.device.slot, p.address.value) → b.bytes.length < offset + src.length := by
  by_cases hfits : ∃ b ∈ w.machine.heap.blocks, b.key = (p.device.slot, p.address.value) ∧
      offset + src.length ≤ b.bytes.length
  · obtain ⟨b, hb, hkey, hlen⟩ := hfits
    obtain ⟨howner, hbase⟩ := Prod.ext_iff.mp hkey
    obtain ⟨newer, older, hsplit⟩ := List.append_of_mem hb
    obtain ⟨heap, hcopy, hwritten⟩ := Heap.copyTo_advance offset hsplit howner hbase hlen
    have hreaches : w.reaches p offset src.length = true := by
      rw [reaches, Heap.sizeAt?_eq_some_iff.mpr ⟨b, hb, hkey, rfl⟩]
      simpa using hlen
    refine Or.inl ⟨{ w.machine with heap }, newer, b, older, ?_, hkey, hsplit, hwritten⟩
    refine bind_eq_ok_iff.mpr ⟨_, if_pos hreaches, ?_⟩
    rw [Machine.copyTo, hcopy]
    rfl
  · refine Or.inr ⟨⟨_, bind_eq_error_iff.mpr (Or.inl (if_neg ?_))⟩, fun b hb hkey => ?_⟩
    · intro hreaches
      rw [reaches] at hreaches
      cases hsize : w.machine.heap.sizeAt? p.device p.address with
      | none =>
        rw [hsize] at hreaches
        cases hreaches
      | some n =>
        obtain ⟨b, hb, hkey, rfl⟩ := Heap.sizeAt?_eq_some_iff.mp hsize
        rw [hsize] at hreaches
        exact hfits ⟨b, hb, hkey, by simpa using hreaches⟩
    · by_contra hlong
      exact hfits ⟨b, hb, hkey, not_lt.mp hlong⟩

section Keep

variable {m : Machine} {x : Held}

theorem gain_keep {t : Thing} {bs : Bytes} (new : List Block) (ht : x.thing? = some t)
    (hblocks : m.heap.blocks = new ++ w.machine.heap.blocks)
    (hkeys : ∀ key, t.key? = some key → key ∈ new.map Block.key)
    (hshows : t.Shows m.heap.blocks bs) :
    w.Gain (.held w.held.length) t bs ({ w with machine := m }.keep x) where
  fresh := thing?_held_length
  things _ := by rw [thing?_keep, ht]
  blocks := ⟨new, hblocks, hkeys⟩
  shows := hshows

end Keep

theorem gain_of_acquires {bs : Bytes} {x : Demand} {s' : Scope} (hc : w.context? i = some c)
    (h : (Scope.mk c w.machine).Acquires x bs s') :
    ∃ t, t.isColumn = false ∧ w.Gain (.buffer i c.allocations.length) t bs
      { w with machine := s'.machine, contexts := w.contexts.set i (some s'.context) } := by
  obtain ⟨a, new, t, hgains, ht, hcolumn, hshows, -⟩ := h
  refine ⟨t, hcolumn, ?_, fun q => ?_, ⟨new, hgains.blocks, fun key hkey => ?_⟩, hshows⟩
  · simp only [thing?, hc, Option.bind_some, Context.thing?_length]
  · refine thing?_setContext hc fun k => ?_
    rw [hgains.context, Context.thing?_hold, ht]
  · rw [hgains.keys, Allocation.key?_eq, ht, Option.bind_some, hkey]
    exact List.mem_singleton_self key

theorem target?_of_initial {bs : Bytes} (h : s.initial? = some (i, bs)) :
    (ContextStep.memory s).target? = .none := by
  cases s <;> first | rfl | cases h

theorem target?_of_isReading (h : s.isReading = true) :
    (ContextStep.memory s).target? = .none := by
  cases s <;> first | rfl | cases h

theorem change_reserve {m : Machine} (hm : w.machine.reserve n = .ok m) :
    Change w (.memory (.reserve n)) ({ w with machine := m }.keep (.reservation n)) := by
  obtain ⟨B, -, heq⟩ := bind_eq_ok_iff.mp hm
  cases heq
  refine .idle (funext fun q => ?_) rfl (by simp [ContextStep.target?])
  rw [thing?_keep]
  split_ifs with hq
  · rw [hq, thing?_held_length]
    rfl
  · rfl

theorem change_newBuffer {m : Machine} {b : HostBuffer}
    (hnew : (Machine.newBuffer n).run w.machine = (.ok b, m)) :
    Change w (.memory (.newBuffer n)) ({ w with machine := m }.keep (.buffer b)) := by
  obtain ⟨rfl, hheap, -⟩ := Machine.newBuffer_ok hnew
  exact .gain _ _ _ (gain_keep [] rfl (congrArg Heap.blocks hheap) nofun rfl) rfl

theorem change_write {b : HostBuffer} (hb : w.held? j = some (.buffer b)) (offset : ℕ)
    (src : Bytes) :
    Change w (.memory (.write j offset src))
      { w with held := w.held.set j (some (.buffer (b.write offset src))) } := by
  refine .write (.held j) b offset src (by simp [thing?, hb, Held.thing?]) (fun q => ?_) rfl rfl
  exact thing?_setHeld hb _

theorem change_drop {x : Held} (hx : w.held? j = some x) : Change w (.memory (.drop j))
    { w with machine := x.release w.machine, held := w.held.set j .none } := by
  refine .drop _ (fun q => ?_) (x.blocks_release w.machine) (fun key hkey => ?_) rfl
  · rw [thing?_setHeld hx]
    cases q <;> simp [ContextStep.removes]
  · obtain ⟨t, ht, hkey⟩ := Option.bind_eq_some_iff.mp (Option.mem_toList.mp hkey)
    exact ⟨.held j, t, by simp [ContextStep.removes], by simp [thing?, hx, ht], hkey⟩

theorem change_openContext (site : Site) : Change w (.memory (.openContext site))
    { w with contexts := w.contexts ++ [some { site }] } := by
  refine .idle (funext fun q => ?_) rfl (by simp [ContextStep.target?])
  cases q with
  | held j => rfl
  | buffer i k =>
    simp only [thing?, context?, join_append_singleton]
    split_ifs with hi
    · simp [hi, Context.thing?]
    · rfl
  | pointer p => rfl

theorem exists_thing_of_mem_keys {key : ℕ × ℕ} (hc : w.context? i = some c) (hkey : key ∈ c.keys) :
    ∃ k t, w.thing? (.buffer i k) = some t ∧ t.key? = some key := by
  obtain ⟨a, ha, hkey⟩ := List.mem_filterMap.mp hkey
  obtain ⟨k, hk⟩ := List.getElem?_of_mem ha
  rw [Allocation.key?_eq] at hkey
  obtain ⟨t, ht, hkey⟩ := Option.bind_eq_some_iff.mp hkey
  exact ⟨k, t, by simp [thing?, hc, Context.thing?, hk, ht], hkey⟩

theorem change_dropContext (hc : w.context? i = some c) : Change w (.memory (.dropContext i))
    { w with machine := c.release w.machine, contexts := w.contexts.set i .none } := by
  refine .drop c.keys (fun q => ?_) (c.blocks_release w.machine) (fun key hkey => ?_) rfl
  · cases q with
    | held j => rfl
    | buffer i' k =>
      simp only [thing?, context?, join_set hc, ContextStep.removes, beq_iff_eq]
      split <;> rfl
    | pointer p => rfl
  · obtain ⟨k, t, ht, hkey⟩ := exists_thing_of_mem_keys hc hkey
    exact ⟨.buffer i k, t, by simp [ContextStep.removes], ht, hkey⟩

theorem change_fetch {m : Machine} {column : FetchedColumn} {level : MemoryLevel} {ref : ColumnRef}
    {deviceId : DeviceId}
    (h : (w.store.fetch ref level deviceId).run w.machine = (.ok column, m)) :
    Change w (.memory (.fetch ref level deviceId))
      ({ w with machine := m }.keep (.column column)) := by
  obtain ⟨-, -, hsite⟩ := ColumnStore.fetch_ok h
  cases level with
  | host =>
    obtain ⟨hhost, hblocks⟩ := hsite
    refine .gain _ _ column.source.bytes (gain_keep [] rfl hblocks ?_ ⟨rfl, ?_⟩) rfl
    · simp [Thing.key?, hhost]
    · simp [hhost]
  | device =>
    obtain ⟨d, a, hdevice, hblocks⟩ := hsite
    refine .gain _ _ column.source.bytes (gain_keep [_] rfl hblocks ?_ ⟨rfl, ?_⟩) rfl
    · simp [Thing.key?, hdevice, Block.key]
    · simp only [hdevice, hblocks, ColumnSite.device.injEq, and_imp]
      rintro _ _ rfl rfl
      exact ⟨_, List.prefix_append _ _, List.mem_cons_self⟩

theorem thing?_borrow {column : FetchedColumn} (hcolumn : w.held? j = some (.column column))
    (hc : w.context? i = some c) (q : Place) :
    ({ w with
      held := w.held.set j .none
      contexts := w.contexts.set i (some (c.hold (.borrowed column))) } : Workbench).thing? q =
        if q = .buffer i c.allocations.length then some (.column column)
        else if q = .held j then .none else w.thing? q := by
  have hc' : ({ w with held := w.held.set j .none } : Workbench).context? i = some c := hc
  rw [thing?_setContext hc' fun _ => Context.thing?_hold, thing?_setHeld hcolumn]
  rfl

theorem change_borrow {column : FetchedColumn} (hcolumn : w.held? j = some (.column column))
    (hc : w.context? i = some c) : Change w (.memory (.borrow i j)) { w with
      held := w.held.set j .none
      contexts := w.contexts.set i (some (c.hold (.borrowed column))) } :=
  .move (.held j) (.buffer i c.allocations.length) (.column column)
    (by simp [thing?, hcolumn, Held.thing?]) (by simp [thing?, hc, Context.thing?_length])
    (by simp [ContextStep.removes]) (thing?_borrow hcolumn hc) rfl rfl

theorem change_alloc {d : Device} {a : Address} {m : Machine}
    (halloc : w.machine.allocDevice d n = .ok (a, m)) : Change w (.memory (.alloc d n))
      { w with machine := m, pointers := w.pointers ++ [⟨d, a, true⟩] } := by
  obtain ⟨hblocks, -⟩ := Machine.allocDevice_ok halloc
  refine .gain (.pointer w.pointers.length) (.block d a) (List.replicate n 0) ⟨?_, fun q => ?_,
    ⟨[_], hblocks, ?_⟩, ?_⟩ rfl
  · simp [thing?]
  · exact thing?_pushPointer
  · simp [Thing.key?, Block.key]
  · change _ ∈ m.heap.blocks
    rw [hblocks]
    exact List.mem_cons_self

/-- A pointer that does not stray is not freed, or has nothing at its address. -/
theorem change_free {p : Pointer} (hp : w.pointers[j]? = some p) (hstray : w.strays j = false) :
    Change w (.memory (.free j 0)) (w.free j p) := by
  cases hlive : p.live with
  | false =>
    rw [free_of_spent hp hlive hstray]
    exact .none rfl
  | true =>
    obtain ⟨hj, -⟩ := List.getElem?_eq_some_iff.mp hp
    have hfreed := (Context.drop_eq (.device p.device) (.device p.address 0) w.machine).1
    rw [filter_of_key?] at hfreed
    refine .drop [(p.device.slot, p.address.value)] (fun q => ?_) hfreed (fun key hkey => ?_) rfl
    · rw [free, thing?_setPointer hj]
      cases q <;> simp [ContextStep.removes, Pointer.thing?]
    · obtain rfl := List.mem_singleton.mp hkey
      refine ⟨.pointer j, .block p.device p.address, by simp [ContextStep.removes], ?_, rfl⟩
      simp [thing?, hp, Pointer.thing?, hlive]

/-- A write to a block of a place changes the block, or is refused because the block is too
short. -/
theorem change_copyInto {s : ContextStep} {p : Pointer} {q : Place}
    (hq : w.thing? q = some (.block p.device p.address))
    (htarget : s.target? = some (q, offset, src)) :
    (∀ m, w.copyInto p offset src = .ok m → Change w s { w with machine := m }) ∧
      ∀ e, w.copyInto p offset src = .error e → w.Refuses q offset src.length := by
  rcases w.copyInto_cases p offset src with
    ⟨m, newer, b, older, hok, hkey, hbefore, hafter⟩ | ⟨⟨e, herror⟩, hshort⟩
  · refine ⟨fun m' hm => ?_, fun e he => nomatch hok.symm.trans he⟩
    cases hok.symm.trans hm
    exact .copy q p.device p.address offset src newer older b hq rfl hkey hbefore hafter htarget
  · refine ⟨fun m hm => (nomatch herror.symm.trans hm), fun e he t ht => ?_⟩
    cases hq.symm.trans ht
    exact hshort

theorem thing?_of_copyInto {p : Pointer} {m : Machine} (hp : w.pointers[j]? = some p)
    (hstray : w.strays j = false) (hcopy : w.copyInto p offset src = .ok m) :
    w.thing? (.pointer j) = some (.block p.device p.address) := by
  obtain ⟨a, hreach, -⟩ := bind_eq_ok_iff.mp hcopy
  rw [reach] at hreach
  split_ifs at hreach with hreaches
  rw [strays, hp, Option.any_some] at hstray
  cases hsize : w.machine.heap.sizeAt? p.device p.address with
  | none =>
    rw [reaches, hsize] at hreaches
    cases hreaches
  | some n =>
    rw [hsize] at hstray
    have hlive : p.live = true := by simpa using hstray
    simp [thing?, hp, Pointer.thing?, hlive]

/-- What a step that finds an empty place would have written has no place. -/
theorem refuses_of_lacks {p : Place} (hlacks : w.Lacks s)
    (htarget : (ContextStep.memory s).target? = some (p, offset, src)) :
    w.Refuses p offset src.length := by
  cases s with
  | write i offset' src' =>
    cases htarget
    intro t ht
    obtain ⟨x, hx, ht⟩ := Option.bind_eq_some_iff.mp ht
    cases x with
    | reservation n => cases ht
    | buffer b => exact absurd hx (hlacks b)
    | column c =>
      cases ht
      exact True.intro
  | copyTo i offset' src' =>
    cases htarget
    have hp : w.pointers[i]? = none := hlacks
    exact refuses_of_none (by simp [thing?, hp])
  | _ => cases htarget

/-- What a step that succeeds does to what can be read, unless it goes through a pointer that
strays. -/
theorem change_does (hstray : (ContextStep.memory s).pointer?.any w.strays = false)
    (hdoes : w.Does s answer w') : Change w (.memory s) w' := by
  cases hdoes with
  | nothing hlacks => exact .idle rfl rfl fun p offset src => refuses_of_lacks hlacks
  | reads hs => exact .none (target?_of_isReading hs)
  | reserve hm => exact change_reserve hm
  | newBuffer hnew => exact change_newBuffer hnew
  | write hb => exact change_write hb _ _
  | drop hx => exact change_drop hx
  | openContext => exact change_openContext _
  | dropContext hc => exact change_dropContext hc
  | acquire hinitial hc hdemand hacquires =>
    obtain ⟨t, -, hgain⟩ := gain_of_acquires hc hacquires
    exact .gain _ t _ hgain (target?_of_initial hinitial)
  | fetch hfetch => exact change_fetch hfetch
  | borrow hcolumn hc => exact change_borrow hcolumn hc
  | alloc halloc => exact change_alloc halloc
  | free hp => exact change_free hp hstray
  | copyTo hp hcopy =>
    have hthing := thing?_of_copyInto hp hstray hcopy
    exact (change_copyInto hthing rfl).1 _ hcopy

theorem refuses_of_fails {p : Place} (hfails : w.Fails s e)
    (htarget : (ContextStep.memory s).target? = some (p, offset, src)) :
    w.Refuses p offset src.length := by
  cases hfails with
  | copyTo hp hcopy =>
    rename_i j _ _ p'
    cases htarget
    have hthing : w.thing? (.pointer j) = p'.thing? := by simp [thing?, hp]
    cases hlive : p'.live with
    | true =>
      rw [Pointer.thing?, if_pos hlive] at hthing
      exact (change_copyInto (s := .memory (.copyTo j offset src)) hthing rfl).2 _ hcopy
    | false =>
      rw [Pointer.thing?, hlive] at hthing
      exact refuses_of_none hthing
  | reads hs hgives haccess => cases (target?_of_isReading hs).symm.trans htarget
  | acquires hnowhere hgives haccess => cases hnowhere.symm.trans htarget

theorem change_memory (w : Workbench) (s : MemoryStep)
    (hstray : (ContextStep.memory s).pointer?.any w.strays = false) :
    Change w (.memory s) (w.next (.memory s)) := by
  rw [next]
  rcases w.step_cases s with ⟨answer, -, hdoes⟩ | ⟨e, -, hsame, hfails⟩
  · exact change_does hstray hdoes
  · rw [hsame]
    exact .idle rfl rfl fun p offset src => refuses_of_fails hfails

theorem change_fill (w : Workbench) (i k offset : ℕ) (src : Bytes) :
    Change w (.fill i k offset src) (w.next (.fill i k offset src)) := by
  cases hc : w.context? i with
  | none =>
    have hnext : w.next (.fill i k offset src) = w := by
      simp only [next, fill, hc]
      rfl
    rw [hnext]
    exact .refused rfl (refuses_of_none (by simp [thing?, hc]))
  | some c =>
    have hthing : w.thing? (.buffer i k) = c.thing? k := by simp [thing?, hc]
    cases hk : c.thing? k with
    | none =>
      have hnext : w.next (.fill i k offset src) = w := by
        simp only [next, fill, hc, hk]
        rfl
      rw [hnext]
      exact .refused rfl (refuses_of_none (hthing.trans hk))
    | some t =>
      rw [hk] at hthing
      cases t with
      | buffer b =>
        simp only [next, fill, hc, hk]
        obtain ⟨a, ha, -⟩ := Option.bind_eq_some_iff.mp hk
        obtain ⟨hlt, -⟩ := List.getElem?_eq_some_iff.mp ha
        exact .write (.buffer i k) b offset src hthing
          (fun q => thing?_setContext hc fun _ => Context.thing?_set hlt) rfl rfl
      | block d a =>
        obtain ⟨hok, herror⟩ := change_copyInto (s := .fill i k offset src) (p := ⟨d, a, true⟩)
          hthing rfl
        simp only [next, fill, hc, hk]
        cases hcopy : w.copyInto ⟨d, a, true⟩ offset src with
        | ok m => exact hok m hcopy
        | error e => exact .refused rfl (herror e hcopy)
      | column column =>
        have hnext : w.next (.fill i k offset src) = w := by
          simp only [next, fill, hc, hk]
          rfl
        rw [hnext]
        exact .refused rfl (refuses_of_column hthing)

theorem change (w : Workbench) (s : ContextStep) (hstray : s.pointer?.any w.strays = false) :
    Change w s (w.next s) := by
  cases s with
  | fill i k offset src => exact change_fill w i k offset src
  | memory s => exact change_memory w s hstray

end Change

end Workbench

end KernelDispatch
