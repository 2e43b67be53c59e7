import KernelDispatch.Proofs.Workbench.Ownership

/-!
# Contexts are isolated

Whatever was done before, in any order, a buffer of a context, a handle and a pointer keep their
contents until their own owner writes or drops them. Dropping a context frees the blocks of its own
places, each once, and nothing else, and columns at host level are served from the store at any
time.
-/

namespace KernelDispatch

namespace Workbench

variable {w w' : Workbench} {p : Place} {t : Thing} {bs : Bytes}

section Drop

variable {i : ℕ} {c : Context}

theorem Owned.nodup_keys (h : w.Owned) (hc : w.context? i = some c) : c.keys.Nodup := by
  have hthing {k : ℕ} {a : Allocation} (hk : c.allocations[k]? = some a) :
      w.thing? (.buffer i k) = a.thing? c.site := by
    simp [thing?, hc, Context.thing?, hk]
  unfold List.Nodup Context.keys
  rw [List.pairwise_filterMap, List.pairwise_iff_getElem]
  intro k l hk hl hlt key hkey key' hkey' heq
  subst heq
  rw [Allocation.key?_eq, Option.bind_eq_some_iff] at hkey hkey'
  obtain ⟨t, ht, hkey⟩ := hkey
  obtain ⟨u, hu, hkey'⟩ := hkey'
  have hplace := h.distinct (.buffer i k) (.buffer i l) t u key
    ((hthing (List.getElem?_eq_getElem hk)).trans ht)
    ((hthing (List.getElem?_eq_getElem hl)).trans hu) hkey hkey'
  cases hplace
  exact absurd hlt (lt_irrefl k)

/-- Dropping a context frees its own blocks, each once, and gives back its own reservations. -/
structure ReleasesOwn (w : Workbench) (i : ℕ) (c : Context) (w' : Workbench) : Prop where
  once : c.keys.Nodup
  live : ∀ key ∈ c.keys, ∃ b ∈ w.machine.heap.blocks, b.key = key
  own : ∀ q t key, w.thing? q = some t → t.key? = some key → key ∈ c.keys → ∃ k, q = .buffer i k
  blocks : w'.machine.heap.blocks = w.machine.heap.blocks.filter (·.key ∉ c.keys)
  budget : w'.machine.budget = w.machine.budget.release c.reserved
  gone : ∀ k, w'.thing? (.buffer i k) = none
  others : ∀ q bs, (∀ k, q ≠ .buffer i k) → w.contents? q = some bs → w'.contents? q = some bs

theorem Owned.releasesOwn (h : w.Owned) (hc : w.context? i = some c) :
    w.ReleasesOwn i c (w.next (.memory (.dropContext i))) := by
  have hnext : w.next (.memory (.dropContext i)) =
      { w with machine := c.release w.machine, contexts := w.contexts.set i none } := by
    simp only [Workbench.next, step, perform, Action.run, hc]
  refine ⟨h.nodup_keys hc, ?_, ?_, ?_, ?_, ?_, ?_⟩
  · intro key hkey
    obtain ⟨k, t, ht, hkey⟩ := exists_thing_of_mem_keys hc hkey
    obtain ⟨bs, hshows⟩ := h.live _ t ht
    exact hshows.exists_block hkey
  · intro q t key hq hkey hmem
    obtain ⟨k, u, hu, hkey'⟩ := exists_thing_of_mem_keys hc hmem
    exact ⟨k, h.distinct q _ t u key hq hu hkey hkey'⟩
  · rw [hnext]
    exact c.blocks_release w.machine
  · rw [hnext]
    exact c.budget_release w.machine
  · intro k
    rw [hnext]
    simp [thing?, context?, join_set hc]
  · intro q bs hq hbs
    have hkeep : (ContextStep.memory (.dropContext i)).removes q = false := by
      cases q with
      | buffer i' k =>
        have hne : i' ≠ i := by
          rintro rfl
          exact hq k rfl
        simpa [ContextStep.removes] using hne
      | _ => rfl
    have hkept := (h.keeps (w.change _ rfl) (h.shows hbs) hkeep).contents
    rw [ContextStep.rewritten_of_elsewhere (by simp [ContextStep.target?]), ite_self] at hkept
    exact hkept

end Drop

theorem context?_of_lacks {s : MemoryStep} {i : ℕ} (hinitial : s.initial? = some (i, bs))
    (hlacks : w.Lacks s) : w.context? i = none := by
  cases s with
  | literal i' value =>
    obtain ⟨_, -, heq⟩ := Option.map_eq_some_iff.mp hinitial
    cases heq
    exact hlacks
  | allocHost i' n | allocDevice i' n | allocDeviceWith i' n src | literalBytes i' bytes =>
    cases hinitial
    exact hlacks
  | _ => cases hinitial

theorem frame_fill (w : Workbench) (i k offset : ℕ) (src : Bytes) :
    (w.next (.fill i k offset src)).store = w.store ∧
      (w.next (.fill i k offset src)).pointers = w.pointers := by
  simp only [next, fill]
  split
  · exact ⟨rfl, rfl⟩
  · split
    · exact ⟨rfl, rfl⟩
    · rename_i d a _
      cases w.copyInto ⟨d, a, true⟩ offset src <;> exact ⟨rfl, rfl⟩
    · exact ⟨rfl, rfl⟩

theorem pointers_next (w : Workbench) {s : ContextStep} (hs : ∀ i, s ≠ .memory (.free i 0)) :
    (w.next s).pointers = w.pointers ∨
      ∃ p : Pointer, p.live = true ∧ (w.next s).pointers = w.pointers ++ [p] := by
  cases s with
  | memory s =>
    rw [next]
    rcases w.step_cases s with ⟨answer, -, hdoes⟩ | ⟨e, -, hsame, -⟩
    · generalize (w.step s).2 = w' at hdoes
      cases hdoes with
      | alloc halloc => exact Or.inr ⟨_, rfl, rfl⟩
      | free hp => exact absurd rfl (hs _)
      | _ => exact Or.inl rfl
    · rw [hsame]
      exact Or.inl rfl
  | fill i k offset src => exact Or.inl (w.frame_fill i k offset src).2

section Store

theorem store_next (w : Workbench) (s : ContextStep) : (w.next s).store = w.store := by
  cases s with
  | memory s => exact w.store_step s
  | fill i k offset src => exact (w.frame_fill i k offset src).1

theorem store_after (w : Workbench) (steps : List ContextStep) :
    (w.after steps).store = w.store := by
  induction steps generalizing w with
  | nil => rfl
  | cons s rest ih => exact (ih (w.next s)).trans (w.store_next s)

/-- A column at host level is served from the store, whatever there is room for. -/
theorem step_fetch_host {ref : ColumnRef} {column : StoredColumn} (id : DeviceId)
    (h : w.store.find? ref.index = some column) :
    (w.step (.fetch ref .host id)).1 = .ok (.column column.count column.bytes) := by
  have hfetch : (w.store.fetch ref .host id).run w.machine =
      (.ok ⟨column, .host⟩, { w.machine with fetches := w.machine.fetches + 1 }) := by
    rw [ColumnStore.fetch, h]
    rfl
  have hrun : (onMachine (w.store.fetch ref .host id)).run w = (.ok ⟨column, .host⟩, _) :=
    run_onMachine_eq_iff.mpr ⟨_, hfetch, rfl⟩
  rw [step, perform, Action.run_bind, Action.run_read]
  dsimp only
  rw [Action.run_bind, hrun]
  rfl

end Store

/-- What the contexts, handles and pointers of a workbench have to do with one another. -/
structure Isolated (store : ColumnStore) (w : Workbench) : Prop where
  /-- Whatever is somewhere can be read. -/
  readable : ∀ p, (w.thing? p).isSome = true → ∃ bs, w.contents? p = some bs
  /-- What is not taken away is still there, changed by the writes to it alone. -/
  kept : ∀ p bs steps, w.contents? p = some bs → w.astray steps = false →
    (∀ s ∈ steps, s.removes p = false) →
    (w.after steps).isColumn p = w.isColumn p ∧ (w.after steps).contents? p =
      some (if w.isColumn p then bs else steps.foldl (fun bs s => s.rewritten p bs) bs)
  /-- A buffer that is acquired through a context is the last of the context and has fresh
  contents. -/
  fresh : ∀ s i c bs answer, w.context? i = some c → s.initial? = some (i, bs) →
    (w.step s).1 = .ok answer →
    (w.step s).2.isColumn (.buffer i c.allocations.length) = false ∧
      (w.step s).2.contents? (.buffer i c.allocations.length) = some bs
  /-- A column that is moved into a context goes from its handle to the end of the context. -/
  moved : ∀ i j c column, w.context? i = some c → w.held? j = some (.column column) →
    let w' := (w.step (.borrow i j)).2
    w'.thing? (.held j) = none ∧ w'.isColumn (.buffer i c.allocations.length) = true ∧
      w'.contents? (.buffer i c.allocations.length) = some column.source.bytes
  dropped : ∀ i c, w.context? i = some c → w.ReleasesOwn i c (w.step (.dropContext i)).2
  /-- Columns at host level are served, whatever was dropped. -/
  served : ∀ ref id column, store.find? ref.index = some column →
    (w.step (.fetch ref .host id)).1 = .ok (.column column.count column.bytes)

theorem Gain.shows_there (h : w.Gain p t bs w') : w'.Shows p t.isColumn bs :=
  ⟨t, by rw [h.things, if_pos rfl], rfl, h.shows⟩

theorem gain_of_initial {s : MemoryStep} {i : ℕ} {c : Context} {answer : MemoryAnswer}
    (hinitial : s.initial? = some (i, bs)) (hc : w.context? i = some c)
    (hok : (w.step s).1 = .ok answer) :
    ∃ t, t.isColumn = false ∧ w.Gain (.buffer i c.allocations.length) t bs (w.step s).2 := by
  have hdoes := step_ok hok
  generalize (w.step s).2 = w' at hdoes
  cases hdoes with
  | acquire hinitial' hc' hdemand hacquires =>
    cases hinitial.symm.trans hinitial'
    cases hc.symm.trans hc'
    exact gain_of_acquires hc hacquires
  | nothing hlacks => cases hc.symm.trans (context?_of_lacks hinitial hlacks)
  | reads hs => cases hinitial.symm.trans (MemoryStep.initial?_of_isReading hs)
  | _ => cases hinitial

theorem Owned.isolated (h : w.Owned) : Isolated w.store w where
  readable p hp := by
    obtain ⟨t, ht⟩ := Option.isSome_iff_exists.mp hp
    obtain ⟨bs, hshows⟩ := h.live p t ht
    have hthere : w.Shows p t.isColumn bs := ⟨t, ht, rfl, hshows⟩
    exact ⟨bs, hthere.contents⟩
  kept p bs steps hbs hastray hkeep := by
    have hkept := h.keeps_after hastray (h.shows hbs) hkeep
    exact ⟨hkept.isColumn, hkept.contents⟩
  fresh s i c bs answer hc hinitial hok := by
    obtain ⟨t, hcolumn, hgain⟩ := gain_of_initial hinitial hc hok
    have hthere := hgain.shows_there
    rw [hcolumn] at hthere
    exact ⟨hthere.isColumn, hthere.contents⟩
  moved i j c column hc hcolumn := by
    have hstep : w.step (.borrow i j) = (.ok .granted, { w with
        held := w.held.set j none
        contexts := w.contexts.set i (some (c.hold (.borrowed column))) }) := by
      simp only [step, perform, Action.run, hcolumn, hc]
      rfl
    rw [hstep]
    intro w'
    obtain ⟨bs, hshows⟩ := h.live (.held j) (.column column)
      (by simp [thing?, hcolumn, Held.thing?])
    have hthings (q : Place) : w'.thing? q =
        if q = .buffer i c.allocations.length then some (.column column)
        else if q = .held j then none else w.thing? q := thing?_borrow hcolumn hc q
    have hmoved : w'.Shows (.buffer i c.allocations.length) true column.source.bytes :=
      ⟨.column column, by rw [hthings, if_pos rfl], rfl, hshows.1 ▸ hshows⟩
    exact ⟨by rw [hthings]; simp, hmoved.isColumn, hmoved.contents⟩
  dropped i c hc := h.releasesOwn hc
  served _ id _ hfind := step_fetch_host id hfind

/-- Without direct frees no pointer strays. -/
theorem astray_of_unfreed {steps : List ContextStep} (hlive : ∀ p ∈ w.pointers, p.live = true)
    (hsteps : ∀ s ∈ steps, ∀ i, s ≠ .memory (.free i 0)) : w.astray steps = false := by
  induction steps generalizing w with
  | nil => rfl
  | cons s rest ih =>
    have hstrays (i : ℕ) : w.strays i = false := by
      unfold strays
      cases hp : w.pointers[i]? with
      | none => rfl
      | some p => simp [hlive p (List.mem_of_getElem? hp)]
    have hpointer : s.pointer?.any w.strays = false := by
      cases s.pointer? with
      | none => rfl
      | some i => exact hstrays i
    refine Bool.or_eq_false_iff.mpr ⟨hpointer, ih (fun p hp => ?_)
      fun t ht => hsteps t (List.mem_cons_of_mem s ht)⟩
    rcases w.pointers_next (hsteps s List.mem_cons_self) with hsame | ⟨q, hq, hmore⟩
    · exact hlive p (hsame ▸ hp)
    · rw [hmore] at hp
      rcases List.mem_append.mp hp with hold | hnew
      · exact hlive p hold
      · rw [List.mem_singleton.mp hnew, hq]

/-- Contexts, handles and pointers of one machine are isolated from one another, whatever was done
in whatever order: each keeps what its owner last wrote, dropping a context frees what is its own
and leaves the rest as it was, and columns at host level can always be read. Only a pointer that was
freed must not be freed again or written through once its device has given the address to another
allocation, for the device would take that one. Without direct frees this cannot happen
(`astray_of_unfreed`). -/
theorem contexts_isolated (store : ColumnStore) (limit : Option ℕ) (past : List ContextStep)
    (hpast : Workbench.astray { store, machine := { budget := { limit } } } past = false) :
    Isolated store (Workbench.after { store, machine := { budget := { limit } } } past) := by
  let start : Workbench := { store, machine := { budget := { limit } } }
  have howned : start.Owned := Owned.start
  have hisolated := (howned.after hpast).isolated
  rw [store_after] at hisolated
  exact hisolated

/-- Two contexts on one device: one is dropped with its buffer and its column, the other keeps its
cell. A pointer was freed, and freed again before its address was given away. -/
theorem contexts_isolated_two :
    let d : Device := { slot := 0, id := 7 }
    let store : ColumnStore := { columns := [(0, ⟨[1, 2], 2⟩)], device := some d }
    let past : List ContextStep := [.memory (.openContext (.device d)),
      .memory (.openContext (.device d)), .memory (.alloc d 8), .memory (.free 0 0),
      .memory (.free 0 0), .memory (.literalBytes 0 [5]), .memory (.allocDevice 1 4),
      .memory (.fetch ⟨0, 0, .boolean⟩ .device 7), .memory (.borrow 1 0), .fill 1 0 1 [9, 9]]
    let w := Workbench.after { store } past
    let w' := (w.step (.dropContext 1)).2
    Workbench.astray { store } past = false ∧
      w.contents? (.buffer 1 0) = some [0, 9, 9, 0] ∧ w.contents? (.buffer 1 1) = some [1, 2] ∧
      (w.machine.heap.blocks.length, w'.machine.heap.blocks.length) = (3, 1) ∧
      w'.contents? (.buffer 0 0) = some [5, 0, 0, 0, 0, 0, 0, 0] ∧
      w'.contents? (.buffer 1 0) = none := by
  intro d store past w w'
  have hpast : Workbench.astray { store } past = false := by decide +kernel
  have hisolated : Isolated store w := contexts_isolated store none past hpast
  have hdropped : ∀ c, w.context? 1 = some c → w.ReleasesOwn 1 c w' := hisolated.dropped 1
  have hcontext : (w.context? 1).isSome = true := by decide +kernel
  obtain ⟨c, hc⟩ := Option.isSome_iff_exists.mp hcontext
  refine ⟨hpast, by decide +kernel, by decide +kernel, by decide +kernel, ?_, ?_⟩
  · exact (hdropped c hc).others (.buffer 0 0) _ (by simp) (by decide +kernel)
  · rw [contents?, (hdropped c hc).gone 0]
    rfl

end Workbench

end KernelDispatch
