import KernelDispatch.Proofs.Context.Estate
import KernelDispatch.Proofs.Dispatcher.Checks
import KernelDispatch.Proofs.Inputs.Demands
import KernelDispatch.Proofs.Workbench.Places

/-!
# What each step of a workbench does

A step that succeeds finds an empty place, only reads, or does one of twelve things to the
workbench; acquiring a buffer through a context is one of them, whatever the buffer is made for. A
step that fails leaves everything as it was: what is copied to a fresh allocation fits and what is
read back from it is there, so that a step that acquires memory fails by a check or a refusal alone.
Whatever is to be known of all steps is told from this.
-/

namespace KernelDispatch

namespace MemoryStep

/-- The step accesses the memory of a device, and acquires none. -/
def isAccess : MemoryStep → Bool
  | copyTo _ _ _ => true
  | copyFrom _ _ _ => true
  | readAt _ _ => true
  | _ => false

/-- The step only reads. A device ignores a free at an address where no allocation starts. -/
def isReading : MemoryStep → Bool
  | inspect _ => true
  | free _ offset => offset != 0
  | copyFrom _ _ _ => true
  | readAt _ _ => true
  | synchronize _ => true
  | deviceId _ => true
  | _ => false

def givesBack : MemoryStep → Bool
  | drop _ => true
  | dropContext _ => true
  | free _ _ => true
  | _ => false

/-- The context of a step that acquires a buffer through it, with the contents of a fresh buffer. -/
def initial? : MemoryStep → Option (ℕ × Bytes)
  | allocHost i n => some (i, zeroFilled (8 * slotsFor n) [])
  | allocDevice i n => some (i, zeroFilled n [])
  | allocDeviceWith i n src => some (i, zeroFilled n src)
  | literal i value => value.literalBytes?.map fun bytes => (i, zeroFilled slotBytes bytes)
  | literalBytes i bytes => some (i, zeroFilled slotBytes bytes)
  | _ => none

/-- The context of such a step, with what the buffer demands at the site of the context. -/
def demand? : MemoryStep → Option (ℕ × (Site → Demand))
  | allocHost i n => some (i, fun _ => .host (8 * slotsFor n))
  | allocDevice i n => some (i, fun site => site.demand n)
  | allocDeviceWith i n _ => some (i, fun site => site.demand n)
  | literal i _ => some (i, fun site => site.demand slotBytes)
  | literalBytes i _ => some (i, fun site => site.demand slotBytes)
  | _ => none

theorem initial?_of_isReading {s : MemoryStep} (h : s.isReading = true) : s.initial? = none := by
  cases s <;> first | rfl | cases h

end MemoryStep

theorem FetchedColumn.load_of_serves {c : FetchedColumn} {level : MemoryLevel} {m m' : Machine}
    (h : ColumnStore.Serves level m c m') : c.load m' = .ok c.source.bytes := by
  obtain ⟨-, hsite⟩ := h
  cases level with
  | host => rw [load, hsite.1]
  | device =>
    obtain ⟨d, a, hdevice, hblocks⟩ := hsite
    have hmem : ⟨d.slot, a.value, zeroFilled (max c.source.bytes.length slotBytes) c.source.bytes⟩ ∈
        m'.heap.blocks := by
      rw [hblocks]
      exact List.mem_cons_self
    have hroom := (le_max_left c.source.bytes.length slotBytes).trans
      (length_zeroFilled (le_max_left _ slotBytes)).ge
    have hread := Heap.copyFrom_base (d := d) (a := a) hmem rfl rfl hroom
    rw [zeroFilled, List.take_left] at hread
    rw [load, hdevice]
    exact hread

theorem ColumnStore.not_access_of_fetch {S : ColumnStore} {ref : ColumnRef} {level : MemoryLevel}
    {deviceId : DeviceId} {m m' : Machine} {e : Failure}
    (h : (S.fetch ref level deviceId).run m = (.error e, m')) : e.isAccess = false := by
  rcases (fetch_error h).2 with hrefusal | hlook
  · exact Failure.not_access_of_refusal hrefusal
  · exact Failure.not_access_of_precedesKernel (S.look_checks ref level deviceId e hlook)

namespace Scope

variable {s₀ : Scope} {n : ℕ} {src : Bytes}

/-- The context has one more buffer, which shows these bytes and was granted for this demand. -/
def Acquires (s : Scope) (x : Demand) (bs : Bytes) (s' : Scope) : Prop :=
  ∃ a new t, s.Gains a new s' ∧ a.thing? s.context.site = some t ∧ t.isColumn = false ∧
    t.Shows s'.machine.heap.blocks bs ∧ s.machine.Grants [x] s'.machine ∧
    (a.estate s.context.site).load = x.load

theorem load_hostEstate (site : Site) :
    ((Allocation.host ((HostBuffer.zeroed n).write 0 src)).estate site).load =
      (8 * slotsFor n, 0) := rfl

theorem acquires_allocHost (hlen : src.length ≤ 8 * slotsFor n) :
    (allocHost n src).Meets (· = s₀)
      (fun _ s => s₀.Acquires (.host (8 * slotsFor n)) (zeroFilled (8 * slotsFor n) src) s)
      fun e s => s = s₀ ∧ e.isAccess = false := by
  apply (atomic_allocHost n src).meets
  · rintro s b s' rfl h
    obtain ⟨hgains, rfl⟩ := allocHost_ok h
    have hgrants := allocHost_demands.run_ok rfl h
    exact ⟨_, _, _, hgains, rfl, rfl, (overwrite_zeros hlen).symm, hgrants, load_hostEstate _⟩
  · rintro s e rfl h
    refine ⟨rfl, ?_⟩
    rcases allocHost_failure h with hrefusal | ⟨-, rfl⟩
    · exact Failure.not_access_of_refusal hrefusal
    · rfl

theorem exists_device_of_allocDevice {s s' : Scope} {a : Address}
    (h : (allocDevice n).run s = (.ok a, s')) : ∃ d, s.context.site = .device d := by
  obtain ⟨d, -, hsite, -⟩ := allocDevice_eq_ok_iff.mp h
  exact ⟨d, hsite⟩

theorem acquires_allocDevice :
    (allocDevice n).Meets (· = s₀)
      (fun _ s => s₀.Acquires (s₀.context.site.demand n) (zeroFilled n []) s)
      fun e s => s = s₀ ∧ e.isAccess = false := by
  apply (atomic_allocDevice n).meets
  · rintro s a s' rfl h
    obtain ⟨d, hsite⟩ := exists_device_of_allocDevice h
    have hgains := allocDevice_ok hsite h
    have hgrants := (allocDevice_demands hsite).run_ok rfl h
    rw [Acquires, hsite]
    refine ⟨_, _, .block d a, hgains, rfl, rfl, ?_, hgrants, rfl⟩
    change ⟨d.slot, a.value, List.replicate n 0⟩ ∈ s'.machine.heap.blocks
    rw [hgains.blocks]
    exact List.mem_cons_self
  · rintro s e rfl h
    refine ⟨rfl, ?_⟩
    rcases allocDevice_failure h with hrefusal | rfl
    · exact Failure.not_access_of_refusal hrefusal
    · rfl

theorem acquires_allocDeviceWith :
    (allocDeviceWith n src).Meets (· = s₀)
      (fun a s => s₀.Acquires (s₀.context.site.demand n) (zeroFilled n src) s ∧
        s.load ⟨.device a, n⟩ = .ok (zeroFilled n src))
      fun e s => s = s₀ ∧ e.isAccess = false := by
  apply (atomic_allocDeviceWith n src).meets
  · rintro s a s' rfl h
    have hlen := length_of_allocDeviceWith h
    cases hsite : s.context.site with
    | host =>
      rw [allocDeviceWith_host hlen hsite] at h
      cases h
    | device d =>
      have hgains := allocDeviceWith_ok hsite h
      have hgrants := (allocDeviceWith_demands hsite hlen).run_ok rfl h
      have hmem : ⟨d.slot, a.value, zeroFilled n src⟩ ∈ s'.machine.heap.blocks := by
        rw [hgains.blocks]
        exact List.mem_cons_self
      rw [Acquires, hsite]
      refine ⟨⟨_, _, .block d a, hgains, rfl, rfl, hmem, hgrants, rfl⟩, ?_⟩
      · change s'.machine.heap.peek a n = _
        rw [Heap.peek_base hmem rfl (length_zeroFilled hlen).ge,
          List.take_of_length_le (length_zeroFilled hlen).le]
  · rintro s e rfl h
    refine ⟨rfl, ?_⟩
    rcases allocDeviceWith_failure h with hrefusal | rfl | rfl
    · exact Failure.not_access_of_refusal hrefusal
    · rfl
    · rfl

theorem acquires_cell (bytes : Bytes) :
    (cell bytes).Meets (· = s₀)
      (fun b s => s₀.Acquires (s₀.context.site.demand slotBytes) (zeroFilled slotBytes bytes) s ∧
        s.load b = .ok (zeroFilled slotBytes bytes))
      fun e s => s = s₀ ∧ e.isAccess = false := by
  rcases Nat.lt_or_ge slotBytes bytes.length with hlong | hlen
  · rw [cell, if_pos hlong]
    apply Action.meets_fail
    rintro s rfl
    exact ⟨rfl, rfl⟩
  · apply (atomic_cell bytes).meets
    · rintro s b s' rfl h
      obtain ⟨a, new, hgains, hcell⟩ := gains_cell hlen h
      refine ⟨?_, (hgains.offers_cell hlen hcell).load⟩
      have hgrants := (cell_demands hlen).run_ok rfl h
      have hblocks := hgains.blocks
      rw [Acquires]
      generalize s.context.site = site at hcell hgrants
      cases hcell with
      | host =>
        have hslots : 8 * slotsFor slotBytes = slotBytes := by decide
        refine ⟨_, _, _, hgains, rfl, rfl, (overwrite_zeros hlen).symm, hgrants, ?_⟩
        rw [load_hostEstate, hslots]
        rfl
      | device d a =>
        refine ⟨_, _, .block d a, hgains, rfl, rfl, ?_, hgrants, rfl⟩
        change ⟨d.slot, a.value, zeroFilled slotBytes bytes⟩ ∈ s'.machine.heap.blocks
        rw [hblocks]
        exact List.mem_cons_self
    · rintro s e rfl h
      exact ⟨rfl, Failure.not_access_of_refusal (cell_error hlen h).2⟩

end Scope

namespace Workbench

/-- The step names an empty place, or one that has nothing of what it needs. -/
def Lacks (w : Workbench) : MemoryStep → Prop
  | .write i _ _ => ∀ b, w.held? i ≠ some (.buffer b)
  | .drop i => w.held? i = none
  | .inspect i => w.context? i = none
  | .dropContext i => w.context? i = none
  | .allocHost i _ => w.context? i = none
  | .allocDevice i _ => w.context? i = none
  | .allocDeviceWith i _ _ => w.context? i = none
  | .literal i _ => w.context? i = none
  | .literalBytes i _ => w.context? i = none
  | .borrow i j => ∀ column c, w.held? j = some (.column column) → w.context? i ≠ some c
  | .free i _ => w.pointers[i]? = none
  | .copyTo i _ _ => w.pointers[i]? = none
  | .copyFrom i _ _ => w.pointers[i]? = none
  | _ => False

/-- What a step that succeeds does. -/
inductive Does (w : Workbench) : MemoryStep → MemoryAnswer → Workbench → Prop
  | nothing {s : MemoryStep} (hlacks : w.Lacks s) : Does w s .nothingThere w
  | reads {s : MemoryStep} {answer : MemoryAnswer} (hs : s.isReading = true) : Does w s answer w
  | reserve {n : ℕ} {m : Machine} (hm : w.machine.reserve n = .ok m) :
      Does w (.reserve n) (.size n) ({ w with machine := m }.keep (.reservation n))
  | newBuffer {n : ℕ} {b : HostBuffer} {m : Machine}
      (hnew : (Machine.newBuffer n).run w.machine = (.ok b, m)) :
      Does w (.newBuffer n) (.buffer b) ({ w with machine := m }.keep (.buffer b))
  | write {i offset : ℕ} {src : Bytes} {b : HostBuffer} (hb : w.held? i = some (.buffer b)) :
      Does w (.write i offset src) (.buffer (b.write offset src))
        { w with held := w.held.set i (some (.buffer (b.write offset src))) }
  | drop {i : ℕ} {x : Held} (hx : w.held? i = some x) :
      Does w (.drop i) .done
        { w with machine := x.release w.machine, held := w.held.set i none }
  | openContext {site : Site} :
      Does w (.openContext site) (.context { site })
        { w with contexts := w.contexts ++ [some { site }] }
  | dropContext {i : ℕ} {c : Context} (hc : w.context? i = some c) :
      Does w (.dropContext i) .done
        { w with machine := c.release w.machine, contexts := w.contexts.set i none }
  /-- A buffer is acquired through a context. -/
  | acquire {s : MemoryStep} {answer : MemoryAnswer} {i : ℕ} {bs : Bytes} {c : Context}
      {demand : Site → Demand} {s' : Scope} (hinitial : s.initial? = some (i, bs))
      (hc : w.context? i = some c) (hdemand : s.demand? = some (i, demand))
      (hacquires : (Scope.mk c w.machine).Acquires (demand c.site) bs s') :
      Does w s answer
        { w with machine := s'.machine, contexts := w.contexts.set i (some s'.context) }
  | fetch {ref : ColumnRef} {level : MemoryLevel} {deviceId : DeviceId} {column : FetchedColumn}
      {m : Machine}
      (hfetch : (w.store.fetch ref level deviceId).run w.machine = (.ok column, m)) :
      Does w (.fetch ref level deviceId) (.column column.count column.source.bytes)
        ({ w with machine := m }.keep (.column column))
  | borrow {i j : ℕ} {column : FetchedColumn} {c : Context}
      (hcolumn : w.held? j = some (.column column)) (hc : w.context? i = some c) :
      Does w (.borrow i j) .granted
        { w with
          held := w.held.set j none
          contexts := w.contexts.set i (some (c.hold (.borrowed column))) }
  | alloc {d : Device} {n : ℕ} {a : Address} {m : Machine}
      (halloc : w.machine.allocDevice d n = .ok (a, m)) :
      Does w (.alloc d n) .granted
        { w with machine := m, pointers := w.pointers ++ [⟨d, a, true⟩] }
  | free {i : ℕ} {p : Pointer} (hp : w.pointers[i]? = some p) :
      Does w (.free i 0) .done (w.free i p)
  | copyTo {i offset : ℕ} {src : Bytes} {p : Pointer} {m : Machine}
      (hp : w.pointers[i]? = some p) (hcopy : w.copyInto p offset src = .ok m) :
      Does w (.copyTo i offset src) .done { w with machine := m }

/-- Why a step fails. -/
inductive Fails (w : Workbench) : MemoryStep → Failure → Prop
  | copyTo {i offset : ℕ} {src : Bytes} {p : Pointer} {e : Failure}
      (hp : w.pointers[i]? = some p) (hcopy : w.copyInto p offset src = .error e) :
      Fails w (.copyTo i offset src) e
  | reads {s : MemoryStep} {e : Failure} (hs : s.isReading = true) (hgives : s.givesBack = false)
      (haccess : e.isAccess = true → s.isAccess = true) : Fails w s e
  /-- A check or a refusal. -/
  | acquires {s : MemoryStep} {e : Failure} (htarget : (ContextStep.memory s).target? = none)
      (hgives : s.givesBack = false) (haccess : e.isAccess = false) : Fails w s e

variable {w w' : Workbench} {s : MemoryStep} {answer : MemoryAnswer} {e : Failure} {i : ℕ}

theorem Fails.access (h : w.Fails s e) (he : e.isAccess = true) : s.isAccess = true := by
  cases h with
  | copyTo hp hcopy => rfl
  | reads hs hgives haccess => exact haccess he
  | acquires htarget hgives haccess => exact Bool.noConfusion (he.symm.trans haccess)

theorem Fails.givesBack (h : w.Fails s e) : s.givesBack = false := by
  cases h with
  | copyTo hp hcopy => rfl
  | reads hs hgives haccess => exact hgives
  | acquires htarget hgives haccess => exact hgives

section Actions

variable {α : Type}

theorem run_onMachine_eq_iff {x : Action Machine α} {answer : Except Failure α} :
    (onMachine x).run w = (answer, w') ↔
      ∃ m, x.run w.machine = (answer, m) ∧ w' = { w with machine := m } :=
  Action.run_on_eq_iff

theorem meets_onMachine {x : Action Machine α} (hx : x.Atomic)
    (htarget : (ContextStep.memory s).target? = none) (hgives : s.givesBack = false)
    (hfails : ∀ e m, x.run w.machine = (.error e, m) → e.isAccess = false) :
    (onMachine x).Meets (· = w)
      (fun a w' => ∃ m, x.run w.machine = (.ok a, m) ∧ w' = { w with machine := m })
      fun e w' => w' = w ∧ w.Fails s e := by
  apply (hx.on fun _ => rfl : (onMachine x).Atomic).meets
  · rintro w a w' rfl hrun
    exact run_onMachine_eq_iff.mp hrun
  · rintro w e rfl hrun
    obtain ⟨m, hx, -⟩ := run_onMachine_eq_iff.mp hrun
    exact ⟨rfl, .acquires htarget hgives (hfails e m hx)⟩

theorem run_within {x : Action Scope MemoryAnswer} {c : Context} (hc : w.context? i = some c) :
    (within i x).run w = ((x.run ⟨c, w.machine⟩).1,
      { w with
        machine := (x.run ⟨c, w.machine⟩).2.machine
        contexts := w.contexts.set i (some (x.run ⟨c, w.machine⟩).2.context) }) := by
  simp only [Action.run, within, hc]

theorem meets_within {x : Action Scope MemoryAnswer} {c : Context} (hc : w.context? i = some c)
    (htarget : (ContextStep.memory s).target? = none) (hgives : s.givesBack = false)
    (hx : x.Meets (· = ⟨c, w.machine⟩)
      (fun _ s' => ∃ bs demand, s.initial? = some (i, bs) ∧ s.demand? = some (i, demand) ∧
        (Scope.mk c w.machine).Acquires (demand c.site) bs s')
      fun e s' => s' = ⟨c, w.machine⟩ ∧ e.isAccess = false) :
    (within i x).Meets (· = w) (w.Does s) fun e w' => w' = w ∧ w.Fails s e := by
  have hrun := run_within (x := x) hc
  rcases hanswer : x.run ⟨c, w.machine⟩ with ⟨e | answer, s'⟩
  · rw [hanswer] at hrun
    obtain ⟨rfl, haccess⟩ := hx.run_error rfl hanswer
    have hsame : { w with contexts := w.contexts.set i (some c) } = w := by
      rw [set_of_getElem? (Option.join_eq_some_iff.mp hc)]
    exact Action.meets_error hrun ⟨hsame, .acquires htarget hgives haccess⟩
  · rw [hanswer] at hrun
    obtain ⟨bs, demand, hinitial, hdemand, hacquires⟩ := hx.run_ok rfl hanswer
    exact Action.meets_ok hrun (.acquire hinitial hc hdemand hacquires)

theorem meets_shown {α : Type} {x : Action Scope α} {buffer : α → Buffer}
    {answer : Bytes → MemoryAnswer} {s₀ : Scope} {demand : Site → Demand} {bs : Bytes}
    (hinitial : s.initial? = some (i, bs)) (hdemand : s.demand? = some (i, demand))
    (hx : x.Meets (· = s₀)
      (fun a s' => s₀.Acquires (demand s₀.context.site) bs s' ∧ s'.load (buffer a) = .ok bs)
      fun e s' => s' = s₀ ∧ e.isAccess = false) :
    Action.Meets (· = s₀)
      (do
        let a ← x
        return answer (← Action.check fun s' => s'.load (buffer a)))
      (fun _ s' => ∃ bs demand, s.initial? = some (i, bs) ∧ s.demand? = some (i, demand) ∧
        s₀.Acquires (demand s₀.context.site) bs s')
      fun e s' => s' = s₀ ∧ e.isAccess = false := by
  apply Action.meets_bind _ hx
  intro a
  apply Action.meets_bind fun _ s' => s₀.Acquires (demand s₀.context.site) bs s'
  · apply Action.meets_check
    · exact fun _ _ hs _ => hs.1
    · intro _ _ hs he
      cases hs.2.symm.trans he
  · exact fun _ => Action.meets_pure fun _ h => ⟨_, _, hinitial, hdemand, h⟩

end Actions

/-- A step that names an empty place changes nothing. -/
theorem run_of_lacks (h : w.Lacks s) : (perform s).run w = (.ok .nothingThere, w) := by
  cases s with
  | write i offset src =>
    simp only [Action.run, perform]
    split
    · rename_i b hb
      exact absurd hb (h b)
    · rfl
  | borrow i j =>
    simp only [Action.run, perform]
    split
    · rename_i column c hcolumn hc
      exact absurd hc (h column c hcolumn)
    · rfl
  | copyFrom i offset len =>
    have hp : w.pointers[i]? = none := h
    simp only [perform, Action.run_check, hp]
  | drop i | inspect i | dropContext i | allocHost i size | allocDevice i size
  | allocDeviceWith i size src | literal i value | literalBytes i bytes | free i offset
  | copyTo i offset src =>
    simp only [Lacks] at h
    simp only [Action.run, perform, within, h]
  | _ => exact h.elim

theorem exists_context (h : ¬w.context? i = none) : ∃ c, w.context? i = some c :=
  Option.ne_none_iff_exists'.mp h

theorem meets_literal {c : Context} (hc : w.context? i = some c) (value : Scalar) :
    (perform (.literal i value)).Meets (· = w) (w.Does (.literal i value))
      fun e w' => w' = w ∧ w.Fails (.literal i value) e := by
  rw [perform, Scope.literal]
  apply meets_within hc rfl rfl
  cases hbytes : value.literalBytes? with
  | some bytes =>
    have hinitial : (MemoryStep.literal i value).initial? =
        some (i, zeroFilled slotBytes bytes) := by
      rw [MemoryStep.initial?, hbytes]
      rfl
    exact meets_shown hinitial rfl (Scope.acquires_cell bytes)
  | none => exact Action.meets_error rfl ⟨rfl, rfl⟩

theorem meets_fetch (w : Workbench) (ref : ColumnRef) (level : MemoryLevel) (deviceId : DeviceId) :
    (perform (.fetch ref level deviceId)).Meets (· = w) (w.Does (.fetch ref level deviceId))
      fun e w' => w' = w ∧ w.Fails (.fetch ref level deviceId) e := by
  apply Action.meets_read_bind
  apply (meets_onMachine (w.store.atomic_fetch ref level deviceId) rfl rfl ?_).bind fun _ _ h => h
  · intro column
    apply Action.meets_some
    intro m hfetch
    -- what was fetched is read for the answer, and that never fails
    have hload := FetchedColumn.load_of_serves (ColumnStore.fetch_ok hfetch).2
    apply Action.meets_update_bind
    refine Action.meets_passed hload ?_
    exact Action.meets_ok rfl (.fetch hfetch)
  · exact fun e m hfetch => ColumnStore.not_access_of_fetch hfetch

/-- Every step does what it does, or fails and leaves the workbench as it was. -/
theorem meets_perform (w : Workbench) (s : MemoryStep) :
    (perform s).Meets (· = w) (w.Does s) fun e w' => w' = w ∧ w.Fails s e := by
  by_cases hlacks : w.Lacks s
  · exact Action.meets_ok (run_of_lacks hlacks) (.nothing hlacks)
  cases s with
  | reserve n =>
    apply (meets_onMachine (Action.atomic_attempt _) rfl rfl ?_).bind fun _ _ h => h
    · rintro _ _ ⟨m, hm, rfl⟩
      exact .reserve (Action.run_attempt_eq_ok_iff.mp hm)
    · intro e m hm
      exact Failure.not_access_of_refusal
        (Machine.reserve_error (Action.run_attempt_eq_error_iff.mp hm).1)
  | newBuffer size =>
    apply (meets_onMachine (Machine.atomic_newBuffer size) rfl rfl ?_).bind fun _ _ h => h
    · rintro b _ ⟨m, hnew, rfl⟩
      exact .newBuffer hnew
    · intro e m hnew
      rcases Machine.newBuffer_failure hnew with hrefusal | ⟨-, rfl⟩
      · exact Failure.not_access_of_refusal hrefusal
      · rfl
  | write i offset src =>
    obtain ⟨b, hb⟩ : ∃ b, w.held? i = some (.buffer b) := by simpa [Lacks] using hlacks
    exact Action.meets_ok (by simp only [Action.run, perform, hb]) (.write hb)
  | drop i =>
    obtain ⟨x, hx⟩ := Option.ne_none_iff_exists'.mp hlacks
    exact Action.meets_ok (by simp only [Action.run, perform, hx]) (.drop hx)
  | openContext site => exact Action.meets_ok rfl .openContext
  | inspect i =>
    obtain ⟨c, hc⟩ := exists_context hlacks
    have hrun : (perform (.inspect i)).run w = (.ok (.context c), w) := by
      simp only [Action.run, perform, hc]
    exact Action.meets_ok hrun (.reads rfl)
  | dropContext i =>
    obtain ⟨c, hc⟩ := exists_context hlacks
    exact Action.meets_ok (by simp only [Action.run, perform, hc]) (.dropContext hc)
  | allocHost i size =>
    rw [perform]
    obtain ⟨c, hc⟩ := exists_context hlacks
    apply meets_within hc rfl rfl
    apply (Scope.acquires_allocHost (Nat.zero_le _)).bind fun _ _ h => h
    intro b
    exact Action.meets_pure fun _ h => ⟨_, _, rfl, rfl, h⟩
  | allocDevice i size =>
    rw [perform]
    obtain ⟨c, hc⟩ := exists_context hlacks
    apply meets_within hc rfl rfl
    apply Scope.acquires_allocDevice.bind fun _ _ h => h
    intro a
    exact Action.meets_pure fun _ h => ⟨_, _, rfl, rfl, h⟩
  | allocDeviceWith i size src =>
    rw [perform]
    obtain ⟨c, hc⟩ := exists_context hlacks
    exact meets_within hc rfl rfl (meets_shown rfl rfl Scope.acquires_allocDeviceWith)
  | literal i value =>
    obtain ⟨c, hc⟩ := exists_context hlacks
    exact meets_literal hc value
  | literalBytes i bytes =>
    rw [perform]
    obtain ⟨c, hc⟩ := exists_context hlacks
    exact meets_within hc rfl rfl (meets_shown rfl rfl (Scope.acquires_cell bytes))
  | fetch ref level deviceId => exact meets_fetch w ref level deviceId
  | borrow i j =>
    obtain ⟨column, hcolumn, c, hc⟩ : ∃ column, w.held? j = some (.column column) ∧
        ∃ c, w.context? i = some c := by simpa [Lacks] using hlacks
    refine Action.meets_ok ?_ (.borrow hcolumn hc)
    simp only [Action.run, perform, hcolumn, hc]
    rfl
  | alloc d size =>
    apply (meets_onMachine (Action.atomic_step _) rfl rfl ?_).bind fun _ _ h => h
    · rintro a _ ⟨m, halloc, rfl⟩
      exact .alloc (Action.run_step_eq_ok_iff.mp halloc)
    · intro e m halloc
      exact Failure.not_access_of_refusal
        (Machine.allocDevice_error (Action.run_step_eq_error_iff.mp halloc).1)
  | free i offset =>
    obtain ⟨p, hp⟩ := Option.ne_none_iff_exists'.mp hlacks
    cases offset with
    | zero => exact Action.meets_ok (by simp only [Action.run, perform, hp]; rfl) (.free hp)
    | succ n => exact Action.meets_ok (by simp only [Action.run, perform, hp]; rfl) (.reads rfl)
  | copyTo i offset src =>
    obtain ⟨p, hp⟩ := Option.ne_none_iff_exists'.mp hlacks
    cases hcopy : w.copyInto p offset src with
    | ok m =>
      exact Action.meets_ok (by simp only [Action.run, perform, hp, hcopy]) (.copyTo hp hcopy)
    | error e =>
      have hrun : (perform (.copyTo i offset src)).run w = (.error e, w) := by
        simp only [Action.run, perform, hp, hcopy]
      exact Action.meets_error hrun ⟨rfl, .copyTo hp hcopy⟩
  | copyFrom i offset len =>
    apply Action.meets_check
    · rintro _ _ rfl -
      exact .reads rfl
    · rintro _ _ rfl -
      exact ⟨rfl, .reads rfl rfl fun _ => rfl⟩
  | readAt a len => exact Action.meets_error rfl ⟨rfl, .reads rfl rfl fun _ => rfl⟩
  | synchronize d =>
    apply Action.meets_check
    · rintro _ _ rfl -
      exact .reads rfl
    · rintro _ e rfl he
      refine ⟨rfl, .reads rfl rfl fun haccess => ?_⟩
      unfold Device.synchronize at he
      split at he
      · cases he
        cases haccess
      · cases he
  | deviceId d => exact Action.meets_ok rfl (.reads rfl)

theorem step_ok (h : (w.step s).1 = .ok answer) : w.Does s answer (w.step s).2 :=
  (meets_perform w s).run_ok rfl (Prod.ext h rfl)

/-- A step that fails changes nothing, and fails by an access only if it does nothing else. -/
theorem step_error (h : (w.step s).1 = .error e) : (w.step s).2 = w ∧ w.Fails s e :=
  (meets_perform w s).run_error rfl (Prod.ext h rfl)

theorem step_cases (w : Workbench) (s : MemoryStep) :
    (∃ answer, (w.step s).1 = .ok answer ∧ w.Does s answer (w.step s).2) ∨
      ∃ e, (w.step s).1 = .error e ∧ (w.step s).2 = w ∧ w.Fails s e := by
  cases hanswer : (w.step s).1 with
  | ok answer => exact Or.inl ⟨answer, rfl, step_ok hanswer⟩
  | error e => exact Or.inr ⟨e, rfl, step_error hanswer⟩

theorem store_step (w : Workbench) (s : MemoryStep) : (w.step s).2.store = w.store := by
  rcases w.step_cases s with ⟨answer, -, hdoes⟩ | ⟨e, -, hsame, -⟩
  · generalize (w.step s).2 = w' at hdoes
    cases hdoes <;> rfl
  · rw [hsame]

/-- A free through a pointer that was freed before does nothing, unless there is another allocation
at its address by now. -/
theorem free_of_spent {p : Pointer} (hp : w.pointers[i]? = some p) (hlive : p.live = false)
    (hstray : w.strays i = false) : w.free i p = w := by
  rw [strays, hp, Option.any_some, hlive] at hstray
  have hnone : w.machine.heap.sizeAt? p.device p.address = none := by simpa using hstray
  have hheap : w.machine.heap.free p.device p.address = w.machine.heap := by
    apply Heap.ext_blocks
    refine List.filter_eq_self.mpr fun b hb => ?_
    by_contra hthere
    have hkey : b.owner = p.device.slot ∧ b.base = p.address.value := by simpa using hthere
    have hsome := Heap.sizeAt?_eq_some_iff.mpr ⟨b, hb, Prod.ext hkey.1 hkey.2, rfl⟩
    cases hnone.symm.trans hsome
  have hspent : { p with live := false } = p := by rw [← hlive]
  rw [free, Machine.freeDevice, hheap, hspent, set_of_getElem? hp]

end Workbench

end KernelDispatch
