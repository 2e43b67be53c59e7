import KernelDispatch.Proofs.Context.Estate
import KernelDispatch.Proofs.Dispatcher.Independence
import KernelDispatch.Proofs.Inputs.Holdings
import KernelDispatch.Proofs.Workbench.Performed

/-!
# Steps keep the account of a workbench

The machine of a workbench is accounted for by what is held, by the contexts and by the pointers
that have not been freed. Every step that succeeds keeps it so: it adds to the estate what it
acquires, takes out what it drops, or moves something from one owner to another.
-/

namespace KernelDispatch

variable {hostLimit : Option ℕ} {limits : ℕ → Option ℕ} {E : Estate}

/-- A change of one member changes a sum by that member alone. -/
theorem exists_sum_set {α M : Type} [AddCommMonoid M] (f : α → M) {l : List α} {i : ℕ} {a : α}
    (h : l[i]? = some a) :
    ∃ rest, (l.map f).sum = rest + f a ∧ ∀ b, ((l.set i b).map f).sum = rest + f b := by
  induction l generalizing i with
  | nil => cases h
  | cons first l ih =>
    cases i with
    | zero =>
      cases h
      exact ⟨(l.map f).sum, by simp [add_comm], fun b => by simp [add_comm]⟩
    | succ i =>
      obtain ⟨rest, hsum, hset⟩ := ih (by simpa using h)
      exact ⟨f first + rest, by simp [hsum, add_assoc], fun b => by
        rw [List.set_cons_succ, List.map_cons, List.sum_cons, hset, add_assoc]⟩

/-- What a fetch takes from the machine belongs to the handle of the column. -/
theorem Machine.Sound.fetch {S : ColumnStore} {ref : ColumnRef} {level : MemoryLevel}
    {deviceId : DeviceId} {m m' : Machine} {c : FetchedColumn} (h : m.Sound hostLimit limits E)
    (hS : ∀ d, S.device = some d → d ∈ limitedBy limits)
    (hfetch : (S.fetch ref level deviceId).run m = (.ok c, m')) :
    m'.Sound hostLimit limits (E + (Allocation.borrowed c).estate .host) := by
  obtain ⟨hlook, hbudget, hsite⟩ := ColumnStore.fetch_ok hfetch
  obtain ⟨source, site⟩ := c
  have hinUse : m'.budget.inUse = m.budget.inUse + BitVec.ofNat 64 0 := by
    rw [hbudget, BitVec.add_zero]
  cases level with
  | host =>
    have hgrants := (S.meets_fetch_demands ref deviceId m .host).run_ok rfl hfetch
    obtain ⟨hhost, hblocks⟩ := hsite
    cases hhost
    have hwithin := h.within.grants (fun x hx => absurd hx List.not_mem_nil) hgrants
    exact ⟨h.accounts.gain hinUse (hblocks.trans (List.nil_append _).symm) rfl, hwithin⟩
  | device =>
    obtain ⟨-, hat⟩ := ColumnStore.look_eq_ok_iff.mp hlook
    obtain ⟨d, hd, -⟩ := hat rfl
    have hgrants := (S.meets_fetch_demands ref deviceId m (.device d)).run_ok rfl hfetch
    rw [ColumnStore.demands, hlook, hd] at hgrants
    obtain ⟨served, a, hdevice, hblocks⟩ := hsite
    cases hdevice
    refine ⟨h.accounts.gain hinUse (hblocks.trans List.singleton_append.symm) rfl,
      h.within.grants ?_ hgrants⟩
    intro x hx
    rw [List.mem_singleton.mp hx]
    exact hS d hd

namespace Scope

/-- The machine is accounted for by the context and by others, who have `E`. -/
structure Sound (hostLimit : Option ℕ) (limits : ℕ → Option ℕ) (s : Scope) (E : Estate) : Prop where
  machine : s.machine.Sound hostLimit limits (E + s.context.estate)
  site : ∀ d, s.context.site = .device d → d ∈ limitedBy limits

theorem Sound.acquire {s s' : Scope} {x : Demand} {bs : Bytes} (h : s.Sound hostLimit limits E)
    (hx : x.IsOf (limitedBy limits)) (hacquires : s.Acquires x bs s') :
    s'.Sound hostLimit limits E := by
  obtain ⟨a, new, t, hgains, -, -, -, hgrants, -⟩ := hacquires
  have hkeys : ((new.map Block.key : List (ℕ × ℕ)) : Multiset (ℕ × ℕ)) =
      (a.estate s.context.site).2 := congrArg _ hgains.keys
  have haccounts := h.machine.accounts.gain hgains.inUse hgains.blocks hkeys
  have hwithin := h.machine.within.grants (List.forall_mem_singleton.mpr hx) hgrants
  rw [add_assoc, ← Context.estate_hold, ← hgains.context] at haccounts
  refine ⟨⟨haccounts, hwithin⟩, ?_⟩
  rw [hgains.context]
  exact h.site

end Scope

def Held.estate : Held → Estate
  | .reservation n => .of n []
  | .buffer b => .of b.footprint []
  | .column c => (Allocation.borrowed c).estate .host

/-- What a pointer has until it is freed. -/
def Pointer.estate (p : Pointer) : Estate :=
  if p.live then .of 0 [(p.device.slot, p.address.value)] else 0

theorem Machine.Sound.releaseHeld {m : Machine} {x : Held}
    (h : m.Sound hostLimit limits (E + x.estate)) (hbound : (E + x.estate).1 < sizeBound) :
    (x.release m).Sound hostLimit limits E := by
  cases x with
  | reservation n => exact h.release hbound
  | buffer b => exact h.release hbound
  | column c => exact h.dropAllocation .host (.borrowed c) hbound

/-- The devices that a step names to allocate on them, now or through a context. -/
def MemoryStep.devices : MemoryStep → Set Device
  | .openContext (.device d) => {d}
  | .alloc d _ => {d}
  | _ => ∅

theorem MemoryStep.isOf_demand {devices : Set Device} {site : Site} {s : MemoryStep} {i : ℕ}
    {demand : Site → Demand} (hsite : ∀ d, site = .device d → d ∈ devices)
    (h : s.demand? = some (i, demand)) : (demand site).IsOf devices := by
  cases s <;> simp only [demand?, reduceCtorEq, Option.some.injEq, Prod.mk.injEq] at h <;>
    obtain ⟨-, rfl⟩ := h
  case allocHost => trivial
  all_goals exact Site.isOf_demand hsite _

namespace Workbench

variable {w w' : Workbench}

def heldEstate (held : List (Option Held)) : Estate := (held.map (·.elim 0 Held.estate)).sum

def contextsEstate (contexts : List (Option Context)) : Estate :=
  (contexts.map (·.elim 0 Context.estate)).sum

def pointersEstate (pointers : List Pointer) : Estate := (pointers.map Pointer.estate).sum

def estate (w : Workbench) : Estate :=
  heldEstate w.held + contextsEstate w.contexts + pointersEstate w.pointers

theorem exists_heldEstate {i : ℕ} {x : Held} (h : w.held? i = some x) :
    ∃ rest, heldEstate w.held = rest + x.estate ∧
      ∀ y : Option Held, heldEstate (w.held.set i y) = rest + y.elim 0 Held.estate :=
  exists_sum_set (fun y : Option Held => y.elim 0 Held.estate) (Option.join_eq_some_iff.mp h)

theorem exists_contextsEstate {i : ℕ} {c : Context} (h : w.context? i = some c) :
    ∃ rest, contextsEstate w.contexts = rest + c.estate ∧
      ∀ y : Option Context, contextsEstate (w.contexts.set i y) = rest + y.elim 0 Context.estate :=
  exists_sum_set (fun y : Option Context => y.elim 0 Context.estate) (Option.join_eq_some_iff.mp h)

theorem exists_pointersEstate {i : ℕ} {p : Pointer} (h : w.pointers[i]? = some p) :
    ∃ rest, pointersEstate w.pointers = rest + p.estate ∧
      ∀ q : Pointer, pointersEstate (w.pointers.set i q) = rest + q.estate :=
  exists_sum_set Pointer.estate h

theorem mem_contexts {i : ℕ} {c : Context} (h : w.context? i = some c) : some c ∈ w.contexts :=
  List.mem_of_getElem? (Option.join_eq_some_iff.mp h)

/-- The machine is accounted for by the owners, and every device that is allocated on has the limit
of its slot. -/
structure Sound (hostLimit : Option ℕ) (limits : ℕ → Option ℕ) (w : Workbench) : Prop where
  machine : w.machine.Sound hostLimit limits w.estate
  sites : ∀ c, some c ∈ w.contexts → ∀ d, c.site = .device d → d ∈ limitedBy limits
  store : ∀ d, w.store.device = some d → d ∈ limitedBy limits

namespace Sound

variable {i : ℕ} {m : Machine} {answer : MemoryAnswer}

theorem keep {x : Held} (h : w.Sound hostLimit limits)
    (hm : m.Sound hostLimit limits (w.estate + x.estate)) :
    ({ w with machine := m }.keep x).Sound hostLimit limits where
  machine := by
    have hestate : ({ w with machine := m }.keep x).estate = w.estate + x.estate := by
      simp only [estate, Workbench.keep, heldEstate, List.map_append, List.sum_append,
        List.map_cons, List.map_nil, List.sum_singleton, Option.elim_some]
      abel
    rw [hestate]
    exact hm
  sites := h.sites
  store := h.store

theorem of_estate_eq (h : w.Sound hostLimit limits)
    (hm : w'.machine.Sound hostLimit limits w.estate) (hestate : w'.estate = w.estate)
    (hcontexts : w'.contexts = w.contexts) (hstore : w'.store = w.store) :
    w'.Sound hostLimit limits where
  machine := by
    rw [hestate]
    exact hm
  sites := by
    rw [hcontexts]
    exact h.sites
  store := by
    rw [hstore]
    exact h.store

theorem scope {c : Context} (h : w.Sound hostLimit limits) (hc : w.context? i = some c) :
    ∃ E, w.estate = E + c.estate ∧ (Scope.mk c w.machine).Sound hostLimit limits E ∧
      ∀ y : Option Context,
        ({ w with contexts := w.contexts.set i y } : Workbench).estate =
          E + y.elim 0 Context.estate := by
  obtain ⟨rest, hsum, hset⟩ := exists_contextsEstate hc
  have hestate : w.estate = heldEstate w.held + rest + pointersEstate w.pointers + c.estate := by
    rw [estate, hsum]
    abel
  refine ⟨_, hestate, ⟨?_, h.sites c (mem_contexts hc)⟩, ?_⟩
  · rw [← hestate]
    exact h.machine
  · intro y
    simp only [estate, hset]
    abel

theorem setContext {y : Option Context} (h : w.Sound hostLimit limits)
    (hy : ∀ c, y = some c → ∀ d, c.site = .device d → d ∈ limitedBy limits)
    (hm : m.Sound hostLimit limits
      ({ w with contexts := w.contexts.set i y } : Workbench).estate) :
    ({ w with machine := m, contexts := w.contexts.set i y } : Workbench).Sound
      hostLimit limits where
  machine := hm
  sites := by
    intro c hc
    rcases List.mem_or_eq_of_mem_set hc with hold | hnew
    · exact h.sites c hold
    · exact hy c hnew.symm
  store := h.store

theorem acquire {c : Context} {x : Demand} {bs : Bytes} {s' : Scope}
    (h : w.Sound hostLimit limits) (hc : w.context? i = some c) (hx : x.IsOf (limitedBy limits))
    (hacquires : (Scope.mk c w.machine).Acquires x bs s') :
    ({ w with machine := s'.machine, contexts := w.contexts.set i (some s'.context) } :
      Workbench).Sound hostLimit limits := by
  obtain ⟨E, -, hscope, hset⟩ := h.scope hc
  have hafter := hscope.acquire hx hacquires
  refine h.setContext ?_ ?_
  · rintro c' ⟨⟩
    exact hafter.site
  · rw [hset]
    exact hafter.machine

theorem drop {x : Held} (h : w.Sound hostLimit limits) (hbound : w.estate.1 < sizeBound)
    (hx : w.held? i = some x) :
    ({ w with machine := x.release w.machine, held := w.held.set i none } : Workbench).Sound
      hostLimit limits where
  machine := by
    obtain ⟨rest, hsum, hset⟩ := exists_heldEstate hx
    have hestate : w.estate =
        rest + contextsEstate w.contexts + pointersEstate w.pointers + x.estate := by
      rw [estate, hsum]
      abel
    have hm := h.machine
    rw [hestate] at hm hbound
    have hafter := hm.releaseHeld hbound
    simpa only [estate, hset, Option.elim_none, add_zero] using hafter
  sites := h.sites
  store := h.store

theorem write {b : HostBuffer} (offset : ℕ) (src : Bytes) (h : w.Sound hostLimit limits)
    (hb : w.held? i = some (.buffer b)) :
    ({ w with held := w.held.set i (some (.buffer (b.write offset src))) } : Workbench).Sound
      hostLimit limits := by
  obtain ⟨rest, hsum, hset⟩ := exists_heldEstate hb
  have hestate : ({ w with held := w.held.set i (some (.buffer (b.write offset src))) } :
      Workbench).estate = w.estate := by
    simp only [estate, hset, hsum]
    rfl
  exact h.of_estate_eq h.machine hestate rfl rfl

theorem dropContext {c : Context} (h : w.Sound hostLimit limits) (hbound : w.estate.1 < sizeBound)
    (hc : w.context? i = some c) :
    ({ w with machine := c.release w.machine, contexts := w.contexts.set i none } : Workbench).Sound
      hostLimit limits := by
  obtain ⟨E, hestate, hscope, hset⟩ := h.scope hc
  rw [hestate] at hbound
  refine h.setContext nofun ?_
  rw [hset, Option.elim_none, add_zero]
  exact hscope.machine.releaseContext c hbound

theorem borrow {j : ℕ} {column : FetchedColumn} {c : Context} (h : w.Sound hostLimit limits)
    (hcolumn : w.held? j = some (.column column)) (hc : w.context? i = some c) :
    ({ w with
      held := w.held.set j none
      contexts := w.contexts.set i (some (c.hold (.borrowed column))) } : Workbench).Sound
      hostLimit limits where
  machine := by
    obtain ⟨rest, hsum, hset⟩ := exists_heldEstate hcolumn
    obtain ⟨rest', hsum', hset'⟩ := exists_contextsEstate hc
    have hsites : (Allocation.borrowed column).estate c.site = (Held.column column).estate := rfl
    have hestate : ({ w with
        held := w.held.set j none
        contexts := w.contexts.set i (some (c.hold (.borrowed column))) } : Workbench).estate =
          w.estate := by
      simp only [estate, hset, hset', hsum, hsum', Option.elim_none, Option.elim_some,
        Context.estate_hold, hsites]
      abel
    rw [hestate]
    exact h.machine
  sites := by
    intro c' hc'
    rcases List.mem_or_eq_of_mem_set hc' with hold | hnew
    · exact h.sites c' hold
    · cases hnew
      exact h.sites c (mem_contexts hc)
  store := h.store

theorem openContext {site : Site} (h : w.Sound hostLimit limits)
    (hsite : ∀ d, site = .device d → d ∈ limitedBy limits) :
    ({ w with contexts := w.contexts ++ [some { site }] } : Workbench).Sound hostLimit limits where
  machine := by
    have hestate : ({ w with contexts := w.contexts ++ [some { site }] } : Workbench).estate =
        w.estate := by
      simp only [estate, contextsEstate, List.map_append, List.sum_append, List.map_cons,
        List.map_nil, List.sum_singleton, Option.elim_some, Context.estate_empty, add_zero]
    rw [hestate]
    exact h.machine
  sites := by
    intro c hc
    rcases List.mem_append.mp hc with hold | hnew
    · exact h.sites c hold
    · cases List.mem_singleton.mp hnew
      exact hsite
  store := h.store

theorem alloc {d : Device} {a : Address}
    (h : w.Sound hostLimit limits)
    (hm : m.Sound hostLimit limits (w.estate + .of 0 [(d.slot, a.value)])) :
    ({ w with machine := m, pointers := w.pointers ++ [⟨d, a, true⟩] } : Workbench).Sound
      hostLimit limits where
  machine := by
    have hestate : ({ w with machine := m, pointers := w.pointers ++ [⟨d, a, true⟩] } :
        Workbench).estate = w.estate + .of 0 [(d.slot, a.value)] := by
      simp only [estate, pointersEstate, List.map_append, List.sum_append, List.map_cons,
        List.map_nil, List.sum_singleton, Pointer.estate, if_true]
      abel
    rw [hestate]
    exact hm
  sites := h.sites
  store := h.store

theorem free {p : Pointer} (h : w.Sound hostLimit limits) (hbound : w.estate.1 < sizeBound)
    (hp : w.pointers[i]? = some p) (hstray : w.strays i = false) :
    (w.free i p).Sound hostLimit limits := by
  cases hlive : p.live with
  | false =>
    rw [free_of_spent hp hlive hstray]
    exact h
  | true =>
    obtain ⟨rest, hsum, hset⟩ := exists_pointersEstate hp
    have hp' : p.estate = (Allocation.device p.address 0).estate (.device p.device) := by
      rw [Pointer.estate, if_pos hlive]
      rfl
    have hestate : w.estate = heldEstate w.held + contextsEstate w.contexts + rest + p.estate := by
      rw [estate, hsum]
      abel
    have hm := h.machine
    rw [hestate, hp'] at hm hbound
    have hafter := hm.dropAllocation (.device p.device) (.device p.address 0) hbound
    refine ⟨?_, h.sites, h.store⟩
    simp only [estate, Workbench.free, hset, Pointer.estate, Bool.false_eq_true, if_false, add_zero]
    exact hafter

/-- Every step that succeeds keeps the account. -/
theorem does {s : MemoryStep} (h : w.Sound hostLimit limits) (hbound : w.estate.1 < sizeBound)
    (hs : s.devices ⊆ limitedBy limits) (hfreed : s.freed?.any w.strays = false)
    (hdoes : w.Does s answer w') : w'.Sound hostLimit limits := by
  cases hdoes with
  | nothing hlacks => exact h
  | reads hs => exact h
  | reserve hm => exact h.keep (h.machine.reserve hm)
  | newBuffer hnew => exact h.keep (h.machine.newBuffer hnew)
  | write hb => exact h.write _ _ hb
  | drop hx => exact h.drop hbound hx
  | openContext =>
    refine h.openContext ?_
    rintro d rfl
    exact hs rfl
  | dropContext hc => exact h.dropContext hbound hc
  | acquire hinitial hc hdemand hacquires =>
    have hsite := h.sites _ (mem_contexts hc)
    exact h.acquire hc (MemoryStep.isOf_demand hsite hdemand) hacquires
  | fetch hfetch => exact h.keep (h.machine.fetch h.store hfetch)
  | borrow hcolumn hc => exact h.borrow hcolumn hc
  | alloc halloc => exact h.alloc (h.machine.allocDevice (hs rfl) halloc)
  | free hp => exact h.free hbound hp hfreed
  | copyTo hp hcopy =>
    obtain ⟨a, -, hcopied⟩ := bind_eq_ok_iff.mp hcopy
    exact h.of_estate_eq (h.machine.copyTo hcopied) rfl rfl rfl

end Sound

end Workbench

end KernelDispatch
