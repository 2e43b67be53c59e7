import KernelDispatch.Proofs.Context.Demands
import KernelDispatch.Proofs.Fit
import KernelDispatch.Proofs.Output.RoundTrip

/-!
# Attempts to mirror output

A call that mirrors output buffers may stop between its two allocations. It then leaves the buffers
without a mirror, and the first allocation to the context, which frees it when it is dropped; so the
next call has the same chance as a first one on a device with that much less room. Once a call has
succeeded, the buffers have their mirror, and each further call is refused before it asks for
anything.
-/

namespace KernelDispatch

/-- Device allocations that a context has acquired, and nothing else that has changed. -/
structure Scope.Adds (s : Scope) (new : List Block) (s' : Scope) : Prop where
  site : s'.context.site = s.context.site
  allocations : ∃ own, own.length = new.length ∧
    s'.context.allocations = s.context.allocations ++ own
  keys : s'.context.keys = s.context.keys ++ (new.map Block.key).reverse
  reserved : s'.context.reserved = s.context.reserved
  blocks : s'.machine.heap.blocks = new ++ s.machine.heap.blocks
  budget : s'.machine.budget = s.machine.budget

namespace Scope

variable {s s' s'' : Scope} {new newer : List Block}

theorem Adds.refl (s : Scope) : s.Adds [] s where
  site := rfl
  allocations := ⟨[], rfl, (List.append_nil _).symm⟩
  keys := (List.append_nil _).symm
  reserved := rfl
  blocks := rfl
  budget := rfl

theorem Adds.trans (h : s.Adds new s') (h' : s'.Adds newer s'') : s.Adds (newer ++ new) s'' where
  site := h'.site.trans h.site
  allocations := by
    obtain ⟨own, hown, hheld⟩ := h.allocations
    obtain ⟨more, hmore, hheld'⟩ := h'.allocations
    refine ⟨own ++ more, ?_, ?_⟩
    · rw [List.length_append, List.length_append, hown, hmore, Nat.add_comm]
    · rw [hheld', hheld, List.append_assoc]
  keys := by
    rw [h'.keys, h.keys, List.map_append, List.reverse_append, List.append_assoc]
  reserved := h'.reserved.trans h.reserved
  blocks := by rw [h'.blocks, h.blocks, List.append_assoc]
  budget := h'.budget.trans h.budget

theorem Gains.adds {a : Address} {n : ℕ} {b : Block} (h : s.Gains (.device a n) [b] s') :
    s.Adds [b] s' where
  site := by rw [h.context, Context.site_hold]
  allocations := ⟨[.device a n], rfl, congrArg Context.allocations h.context⟩
  keys := by rw [h.context, Context.keys_hold, ← h.keys]; rfl
  reserved := by rw [h.context, Context.reserved_hold]; rfl
  blocks := h.blocks
  budget := by
    have hinUse := h.inUse
    have hlimit := h.limit
    rw [Allocation.reserved, BitVec.add_zero] at hinUse
    revert hinUse hlimit
    cases s'.machine.budget
    rintro rfl rfl
    rfl

theorem Adds.release (h : s.Adds new s') :
    s'.release.heap = s.release.heap ∧ s'.release.budget = s.release.budget := by
  constructor
  · apply Heap.ext_blocks
    rw [Scope.release, Scope.release, Context.blocks_release, Context.blocks_release, h.blocks,
      List.filter_append, h.keys]
    have hfreed : new.filter (fun b => b.key ∉ s.context.keys ++ (new.map Block.key).reverse) =
        [] := by
      rw [List.filter_eq_nil_iff]
      intro b hb
      have hmem : b.key ∈ new.map Block.key := List.mem_map_of_mem hb
      simp [hmem]
    rw [hfreed, List.nil_append]
    apply List.filter_congr
    intro b hb
    have hother : b.key ∉ (new.map Block.key).reverse := by
      rw [List.mem_reverse]
      intro hmem
      obtain ⟨b', hb', hkey⟩ := List.mem_map.mp hmem
      exact Heap.base_ne_of_newer h.blocks hb' hb (congrArg Prod.snd hkey)
    simp only [List.mem_append, hother, or_false]
  · rw [Scope.release, Scope.release, Context.budget_release, Context.budget_release, h.reserved,
      h.budget]

end Scope

namespace OutputBuffers

variable {o o' : OutputBuffers} {mirror : Mirror} {d : Device} {dims : LaunchDims} {s s' : Scope}

theorem length_columnArray (o : OutputBuffers) (storage : Address) :
    (o.columnArray storage).length = 8 * o.result.columnCount := by
  rw [o.columnArray_eq, length_columnPointers]

/-- Buffers without a mirror, whose columns are in range, are mirrored in two allocations. -/
theorem setUpMirror_unmirrored (hmirror : o.mirror = none)
    (hsize : o.result.storageBytes ≤ o.result.storage.size) :
    o.setUpMirror dims = do
      let storage ← Scope.allocDeviceWith (max o.result.storageBytes slotBytes)
        (o.result.storage.padded.take o.result.storageBytes)
      let columns ← Scope.allocDeviceWith (max (8 * o.result.columnCount) slotBytes)
        (o.columnArray storage)
      return (columns, { o with mirror := some { storage, columns, dims } }) := by
  rw [setUpMirror, hmirror]
  simp only [ResultSet.checkView_of_le hsize, length_columnArray]
  rfl

theorem setUpMirror_again (hmirror : o.mirror = some mirror) (dims : LaunchDims) (s : Scope) :
    (o.setUpMirror dims).run s = (.error .mirrorExists, s) := by
  rw [setUpMirror, hmirror]
  rfl

/-- How a call on buffers without a mirror ends, and with which scope. -/
inductive Attempt (o : OutputBuffers) (s : Scope) :
    Except Failure (Address × OutputBuffers) → Scope → Prop
  | noDevice (hsite : s.context.site = .host) : Attempt o s (.error .noContextDevice) s
  /-- One of the two allocations is refused. -/
  | refused {d : Device} {e : Failure} {new : List Block} {s' : Scope}
      (hsite : s.context.site = .device d) (hrefusal : e.isRefusal = true)
      (hnew : new.length ≤ 1) (hadds : s.Adds new s') : Attempt o s (.error e) s'
  | mirrored {d : Device} {mirror : Mirror} {new : List Block} {s' : Scope}
      (hsite : s.context.site = .device d) (hnew : new.length = 2) (hadds : s.Adds new s')
      (hlaid : o.LaidOut mirror d s') :
      Attempt o s (.ok (mirror.columns, { o with mirror := some mirror })) s'

/-- A call succeeds, finds no device, or is refused one of its two allocations. -/
theorem setUpMirror_attempt (hmirror : o.mirror = none)
    (hsize : o.result.storageBytes ≤ o.result.storage.size) (dims : LaunchDims) (s : Scope) :
    o.Attempt s ((o.setUpMirror dims).run s).1 ((o.setUpMirror dims).run s).2 := by
  have hcopied := o.length_copied.le.trans (le_max_left _ slotBytes)
  cases hsite : s.context.site with
  | host =>
    have hfails : (o.setUpMirror dims).run s = (.error .noContextDevice, s) := by
      rw [setUpMirror_unmirrored hmirror hsize, Action.run_bind,
        Scope.allocDeviceWith_host hcopied hsite]
    rw [hfails]
    exact .noDevice hsite
  | device d =>
    rcases hrun : (o.setUpMirror dims).run s with ⟨e | ⟨columns, o'⟩, s'⟩
    · rw [setUpMirror_unmirrored hmirror hsize] at hrun
      rcases Action.run_bind_eq_error_iff.mp hrun with hfirst | ⟨storage, s₁, hfirst, hrest⟩
      · have hrefusal := Scope.allocDeviceWith_error hsite hcopied hfirst
        obtain rfl := Scope.atomic_allocDeviceWith _ _ _ _ _ hfirst
        have hnone : ([] : List Block).length ≤ 1 := Nat.zero_le 1
        exact .refused hsite hrefusal hnone (.refl _)
      · have hadds := (Scope.allocDeviceWith_ok hsite hfirst).adds
        have hsite₁ : s₁.context.site = .device d := hadds.site.trans hsite
        rcases Action.run_bind_eq_error_iff.mp hrest with hsecond | ⟨columns, s₂, -, hpure⟩
        · have harray := (o.length_columnArray storage).le.trans (le_max_left _ slotBytes)
          have hrefusal := Scope.allocDeviceWith_error hsite₁ harray hsecond
          obtain rfl := Scope.atomic_allocDeviceWith _ _ _ _ _ hsecond
          exact .refused hsite hrefusal le_rfl hadds
        · cases hpure
    · obtain ⟨d', mirror, hsite', rfl, rfl, hlaid⟩ := setUpMirror_laidOut hrun
      obtain ⟨-, -, storage, s₁, hstorage, hcolumns, -⟩ := setUpMirror_ok hrun
      have hadds := (Scope.allocDeviceWith_ok hsite hstorage).adds
      have hsite₁ : s₁.context.site = .device d := hadds.site.trans hsite
      have hadds' := (Scope.allocDeviceWith_ok hsite₁ hcolumns).adds
      exact .mirrored hsite' rfl (hadds.trans hadds') hlaid

def mirrorDemands (o : OutputBuffers) (d : Device) : List Demand :=
  [.device d (max o.result.storageBytes slotBytes),
    .device d (max (8 * o.result.columnCount) slotBytes)]

theorem setUpMirror_demands (hmirror : o.mirror = none)
    (hsize : o.result.storageBytes ≤ o.result.storage.size)
    (hsite : s.context.site = .device d) : s.Demands (o.setUpMirror dims) (o.mirrorDemands d) := by
  have hcopied := o.length_copied.le.trans (le_max_left _ slotBytes)
  rw [setUpMirror_unmirrored hmirror hsize]
  have hmeets : Action.Meets (· = s) (Scope.allocDeviceWith (max o.result.storageBytes slotBytes)
      (o.result.storage.padded.take o.result.storageBytes))
      (fun _ s' => s'.context.site = .device d) fun e _ => e.isRefusal = true := by
    apply (Scope.atomic_allocDeviceWith _ _).meets
    · rintro s storage s' rfl hok
      exact (Scope.allocDeviceWith_ok hsite hok).adds.site.trans hsite
    · rintro s e rfl he
      exact Scope.allocDeviceWith_error hsite hcopied he
  apply (Scope.allocDeviceWith_demands hsite hcopied).bind hmeets
  · intro e s he hchecked
    rw [he] at hchecked
    cases hchecked
  · intro storage s' hsite'
    have harray := (o.length_columnArray storage).le.trans (le_max_left _ slotBytes)
    exact (Scope.allocDeviceWith_demands hsite' harray).map _

/-- While the addresses last, a call on a device succeeds exactly if the device may have two more
allocations. -/
theorem setUpMirror_ok_iff (hmirror : o.mirror = none)
    (hsize : o.result.storageBytes ≤ o.result.storage.size) (hsite : s.context.site = .device d)
    (haddresses : s.machine.heap.top + addressesOf (o.mirrorDemands d) ≤ addressSpace) :
    (∃ a, ((o.setUpMirror dims).run s).1 = .ok a) ↔ s.machine.HasSlots d 2 := by
  have hof : ∀ x ∈ o.mirrorDemands d, x.IsOf {d} := by simp [mirrorDemands, Demand.IsOf]
  have hbytes : s.machine.budget.inUse.toNat + hostBytesOf (o.mirrorDemands d) < sizeBound := by
    have hword := s.machine.budget.inUse.isLt
    simp only [mirrorDemands, hostBytesOf_cons, hostBytesOf_nil, Demand.hostBytes]
    exact hword
  have hfits : s.machine.Fits d (o.mirrorDemands d) ↔ s.machine.HasSlots d 2 :=
    ⟨fun h => h.slots _ List.mem_cons_self, fun h => ⟨by simp [mirrorDemands], fun _ _ => h⟩⟩
  rw [← hfits, ← Machine.grantAll_ok_iff hof hbytes haddresses]
  have hdemands : s.Demands (o.setUpMirror dims) (o.mirrorDemands d) :=
    setUpMirror_demands hmirror hsize hsite
  have hmeets := hdemands s rfl
  have hattempt := setUpMirror_attempt hmirror hsize dims s
  rcases hrun : (o.setUpMirror dims).run s with ⟨e | a, s'⟩
  · rw [hrun] at hmeets hattempt
    constructor
    · rintro ⟨a, ⟨⟩⟩
    · rintro ⟨m', hgranted⟩
      have hchecked : e.isRefusal = false := by
        change s.machine.Stops (o.mirrorDemands d) e at hmeets
        rwa [Machine.Stops, hgranted] at hmeets
      cases hattempt with
      | noDevice hhost =>
        rw [hhost] at hsite
        cases hsite
      | refused hsite hrefusal hnew hadds =>
        rw [hrefusal] at hchecked
        cases hchecked
  · rw [hrun] at hmeets
    obtain ⟨m₁, hgranted, -⟩ := hmeets
    exact ⟨fun _ => ⟨m₁, hgranted⟩, fun _ => ⟨a, rfl⟩⟩

end OutputBuffers

/-- What happens to a session while its buffers are being mirrored. -/
inductive MirrorEvent
  | setUp (dims : LaunchDims)
  /-- Somebody frees an allocation. -/
  | free (d : Device) (a : Address)

/-- Device memory after the frees among some events. -/
def Heap.afterFrees (h : Heap) : List MirrorEvent → Heap
  | [] => h
  | .setUp _ :: rest => h.afterFrees rest
  | .free d a :: rest => (h.free d a).afterFrees rest

theorem Heap.afterFrees_cons (h : Heap) (event : MirrorEvent) (events : List MirrorEvent) :
    h.afterFrees (event :: events) = (h.afterFrees [event]).afterFrees events := by
  cases event <;> rfl

theorem Heap.mem_free_iff {h : Heap} {d : Device} {a : Address} {b : Block} :
    b ∈ (h.free d a).blocks ↔ b ∈ h.blocks ∧ b.key ≠ (d.slot, a.value) := by
  simp only [free, Block.key, List.mem_filter, Bool.not_eq_true', Bool.and_eq_false_imp, beq_iff_eq,
    beq_eq_false_iff_ne, ne_eq, Prod.mk.injEq, not_and]

/-- A free and the drop of a context take the same blocks away in either order. -/
theorem Context.release_free (c : Context) (m : Machine) (d : Device) (a : Address) :
    (c.release (m.freeDevice d a)).heap = (c.release m).heap.free d a := by
  apply Heap.ext_blocks
  rw [c.blocks_release]
  change (m.heap.blocks.filter _).filter _ = (c.release m).heap.blocks.filter _
  rw [c.blocks_release, List.filter_comm]

namespace OutputSession

variable {t t₀ t' : OutputSession} {o : OutputBuffers} {c : Context} {mirror : Mirror} {d : Device}
  {dims : LaunchDims} {events : List MirrorEvent}

def next (t : OutputSession) : MirrorEvent → OutputSession
  | .setUp dims => ((perform (.setUpMirror dims)).run t).2
  | .free d a => { t with machine := t.machine.freeDevice d a }

def after (t : OutputSession) (events : List MirrorEvent) : OutputSession := events.foldl next t

theorem after_append (t : OutputSession) (before later : List MirrorEvent) :
    t.after (before ++ later) = (t.after before).after later := List.foldl_append

def Unmirrored (t : OutputSession) (events : List MirrorEvent) : Prop :=
  ∀ before dims later, events = before ++ .setUp dims :: later →
    ∃ e, ((perform (.setUpMirror dims)).run (t.after before)).1 = .error e

/-- A session whose buffers have no mirror and columns in range. -/
structure Ready (t : OutputSession) (o : OutputBuffers) (c : Context) : Prop where
  product : t.product = some (.buffers o)
  context : t.context = some c
  mirror : o.mirror = none
  size : o.result.storageBytes ≤ o.result.storage.size

/-- What a call does to buffers without a mirror. -/
structure Tries (t : OutputSession) (o : OutputBuffers) (c : Context) (dims : LaunchDims) :
    Prop where
  /-- A context without a device stays as it is, like everything else. -/
  noDevice : c.site = .host → (perform (.setUpMirror dims)).run t = (.error .noContextDevice, t)
  /-- A failure leaves the buffers, and at most one allocation to the context. -/
  failed : ∀ e t', (perform (.setUpMirror dims)).run t = (.error e, t') →
    (e = .noContextDevice ∨ e.isRefusal = true) ∧ ∃ c' new,
      t'.product = some (.buffers o) ∧ t'.context = some c' ∧ new.length ≤ 1 ∧
      Scope.Adds ⟨c, t.machine⟩ new ⟨c', t'.machine⟩
  /-- A success gives the buffers a mirror of two allocations, which the context owns. -/
  succeeded : ∀ answer t', (perform (.setUpMirror dims)).run t = (.ok answer, t') →
    ∃ d mirror c' new, c.site = .device d ∧
      t'.product = some (.buffers { o with mirror := some mirror }) ∧ t'.context = some c' ∧
      new.length = 2 ∧ Scope.Adds ⟨c, t.machine⟩ new ⟨c', t'.machine⟩ ∧
      o.LaidOut mirror d ⟨c', t'.machine⟩
  /-- While the addresses last, all that a success takes is room for two allocations on the device,
  whatever calls have failed before. -/
  succeeds_iff : ∀ d, c.site = .device d →
    t.machine.heap.top + addressesOf (o.mirrorDemands d) ≤ addressSpace →
      ((∃ answer, ((perform (.setUpMirror dims)).run t).1 = .ok answer) ↔ t.machine.HasSlots d 2)

theorem run_setUpMirror_error {e : Failure} {s : Scope} (ho : t.product = some (.buffers o))
    (hc : t.context = some c) (hrun : (o.setUpMirror dims).run ⟨c, t.machine⟩ = (.error e, s)) :
    (perform (.setUpMirror dims)).run t =
      (.error e, { t with machine := s.machine, context := some s.context }) := by
  change (mirrored dims).run t = _
  unfold Action.run mirrored
  rw [hc, ho]
  simp only
  rw [hrun]

theorem run_setUpMirror_ok {s : Scope} (ho : t.product = some (.buffers o))
    (hc : t.context = some c) (hrun : (o.setUpMirror dims).run ⟨c, t.machine⟩ =
      (.ok (mirror.columns, { o with mirror := some mirror }), s))
    (hholds : mirror.Holds o.result d s.machine.heap) :
    ∃ answer, (perform (.setUpMirror dims)).run t = (.ok answer,
      { machine := s.machine, context := some s.context,
        product := some (.buffers { o with mirror := some mirror }) }) := by
  have hdistances := columnDistances_of_holds hholds
  rcases hfull : (perform (.setUpMirror dims)).run t with ⟨answer, t'⟩
  change (mirrored dims).run t = _ at hfull
  unfold Action.run mirrored at hfull
  rw [hc, ho] at hfull
  simp only at hfull
  rw [hrun] at hfull
  simp only [hdistances, Prod.mk.injEq] at hfull
  obtain ⟨rfl, rfl⟩ := hfull
  exact ⟨_, rfl⟩

theorem Ready.tries (h : t.Ready o c) (dims : LaunchDims) : t.Tries o c dims := by
  have hattempt := OutputBuffers.setUpMirror_attempt h.mirror h.size dims ⟨c, t.machine⟩
  have hiff {d : Device} (hsite : c.site = .device d)
      (haddresses : t.machine.heap.top + addressesOf (o.mirrorDemands d) ≤ addressSpace) :
      (∃ a, ((o.setUpMirror dims).run ⟨c, t.machine⟩).1 = .ok a) ↔ t.machine.HasSlots d 2 :=
    OutputBuffers.setUpMirror_ok_iff (s := ⟨c, t.machine⟩) h.mirror h.size hsite haddresses
  rcases hset : (o.setUpMirror dims).run ⟨c, t.machine⟩ with ⟨answer, s⟩
  rw [hset] at hattempt hiff
  cases hattempt with
  | noDevice hhost =>
    have hrun := run_setUpMirror_error h.product h.context hset
    simp only [← h.context] at hrun
    refine ⟨fun _ => hrun, ?_, ?_, ?_⟩
    · rintro e t' he
      rw [hrun] at he
      cases he
      exact ⟨Or.inl rfl, c, [], h.product, h.context, Nat.zero_le 1, .refl _⟩
    · rintro answer t' hok
      rw [hrun] at hok
      cases hok
    · intro d hsite
      rw [hhost] at hsite
      cases hsite
  | refused hsite hrefusal hnew hadds =>
    have hrun := run_setUpMirror_error h.product h.context hset
    refine ⟨?_, ?_, ?_, ?_⟩
    · intro hhost
      rw [hhost] at hsite
      cases hsite
    · rintro e t' he
      rw [hrun] at he
      cases he
      exact ⟨Or.inr hrefusal, _, _, h.product, rfl, hnew, hadds⟩
    · rintro answer t' hok
      rw [hrun] at hok
      cases hok
    · intro d hsite haddresses
      rw [← hiff hsite haddresses, hrun]
      simp
  | mirrored hsite hnew hadds hlaid =>
    obtain ⟨answer, hrun⟩ := run_setUpMirror_ok h.product h.context hset hlaid.holds
    refine ⟨?_, ?_, ?_, ?_⟩
    · intro hhost
      rw [hhost] at hsite
      cases hsite
    · rintro e t' he
      rw [hrun] at he
      cases he
    · rintro answer t' hok
      rw [hrun] at hok
      cases hok
      exact ⟨_, _, _, _, hsite, rfl, rfl, hnew, hadds, hlaid⟩
    · intro d hsite haddresses
      rw [← hiff hsite haddresses, hrun]
      simp

theorem run_setUpMirror_again {o : OutputBuffers} (ho : t.product = some (.buffers o))
    (hc : t.context = some c) (hmirror : o.mirror = some mirror) (dims : LaunchDims) :
    (perform (.setUpMirror dims)).run t = (.error .mirrorExists, t) := by
  rw [run_setUpMirror_error ho hc (OutputBuffers.setUpMirror_again hmirror dims _), ← hc]

structure Settled (t : OutputSession) (o : OutputBuffers) (mirror : Mirror) (c : Context) :
    Prop where
  product : t.product = some (.buffers { o with mirror := some mirror })
  context : t.context = some c

theorem Settled.next (h : t.Settled o mirror c) (event : MirrorEvent) :
    (t.next event).Settled o mirror c ∧
      (c.release (t.next event).machine).heap = (c.release t.machine).heap.afterFrees [event] := by
  cases event with
  | setUp dims =>
    have hagain := run_setUpMirror_again h.product h.context rfl dims
    have hsame : t.next (.setUp dims) = t := congrArg Prod.snd hagain
    rw [hsame]
    exact ⟨h, rfl⟩
  | free d a => exact ⟨⟨h.product, h.context⟩, c.release_free t.machine d a⟩

theorem Settled.after (h : t.Settled o mirror c) (events : List MirrorEvent) :
    (t.after events).Settled o mirror c ∧
      (c.release (t.after events).machine).heap = (c.release t.machine).heap.afterFrees events := by
  induction events generalizing t with
  | nil => exact ⟨h, rfl⟩
  | cons event rest ih =>
    obtain ⟨hnext, hheap⟩ := h.next event
    obtain ⟨hafter, hheap'⟩ := ih hnext
    refine ⟨hafter, hheap'.trans ?_⟩
    rw [hheap, ← Heap.afterFrees_cons]

theorem Settled.laidOut_after (h : t.Settled o mirror c) (hlaid : o.LaidOut mirror d ⟨c, t.machine⟩)
    (hspares : ∀ d' a, MirrorEvent.free d' a ∈ events → (d'.slot, a.value) ∉ c.keys) :
    o.LaidOut mirror d ⟨c, (t.after events).machine⟩ := by
  induction events generalizing t with
  | nil => exact hlaid
  | cons event rest ih =>
    refine ih (h.next event).1 ?_ fun d' a hfree => hspares d' a (List.mem_cons_of_mem _ hfree)
    cases event with
    | setUp dims =>
      have hagain := run_setUpMirror_again h.product h.context rfl dims
      have hsame : t.next (.setUp dims) = t := congrArg Prod.snd hagain
      rw [hsame]
      exact hlaid
    | free d' a =>
      have hother := hspares d' a List.mem_cons_self
      have hkept {b : Block} (hb : b ∈ t.machine.heap.blocks) (hkey : b.key ∈ c.keys) :
          b ∈ (t.machine.heap.free d' a).blocks :=
        Heap.mem_free_iff.mpr ⟨hb, fun heq => hother (heq ▸ hkey)⟩
      exact ⟨hkept hlaid.storage hlaid.ownsStorage, hkept hlaid.array hlaid.ownsArray,
        hlaid.ownsStorage, hlaid.ownsArray⟩

theorem Ready.next (h : t.Ready o c) (event : MirrorEvent) : ∃ c', c'.site = c.site ∧
    (c'.release (t.next event).machine).heap = (c.release t.machine).heap.afterFrees [event] ∧
    ((t.next event).Ready o c' ∨ ∃ mirror, (t.next event).Settled o mirror c') := by
  cases event with
  | setUp dims =>
    have htries := h.tries dims
    rcases hrun : (perform (.setUpMirror dims)).run t with ⟨e | answer, t'⟩
    · obtain ⟨-, c', new, hproduct, hcontext, -, hadds⟩ := htries.failed e t' hrun
      rw [OutputSession.next, hrun]
      exact ⟨c', hadds.site, hadds.release.1, Or.inl ⟨hproduct, hcontext, h.mirror, h.size⟩⟩
    · obtain ⟨d, mirror, c', new, -, hproduct, hcontext, -, hadds, -⟩ :=
        htries.succeeded answer t' hrun
      rw [OutputSession.next, hrun]
      exact ⟨c', hadds.site, hadds.release.1, Or.inr ⟨mirror, hproduct, hcontext⟩⟩
  | free d a =>
    exact ⟨c, rfl, c.release_free t.machine d a, Or.inl ⟨h.product, h.context, h.mirror, h.size⟩⟩

theorem Ready.after (h : t.Ready o c) (events : List MirrorEvent) : ∃ c', c'.site = c.site ∧
    (c'.release (t.after events).machine).heap = (c.release t.machine).heap.afterFrees events ∧
    ((t.after events).Ready o c' ∨ ∃ mirror, (t.after events).Settled o mirror c') := by
  induction events generalizing t c with
  | nil => exact ⟨c, rfl, rfl, Or.inl h⟩
  | cons event rest ih =>
    obtain ⟨c₁, hsite, hheap, hready | ⟨mirror, hsettled⟩⟩ := h.next event
    · obtain ⟨c', hsite', hheap', hend⟩ := ih hready
      refine ⟨c', hsite'.trans hsite, hheap'.trans ?_, hend⟩
      rw [hheap, ← Heap.afterFrees_cons]
    · obtain ⟨hafter, hheap'⟩ := hsettled.after rest
      refine ⟨c₁, hsite, hheap'.trans ?_, Or.inr ⟨mirror, hafter⟩⟩
      rw [hheap, ← Heap.afterFrees_cons]

theorem Ready.after_unmirrored (h : t.Ready o c) (hfails : t.Unmirrored events) :
    ∃ c', (t.after events).Ready o c' := by
  induction events generalizing t c with
  | nil => exact ⟨c, h⟩
  | cons event rest ih =>
    have hrest : (t.next event).Unmirrored rest := by
      intro before dims later hsplit
      exact hfails (event :: before) dims later (congrArg (List.cons event) hsplit)
    obtain ⟨c₁, -, -, hready | ⟨mirror, hsettled⟩⟩ := h.next event
    · exact ih hready hrest
    · cases event with
      | setUp dims =>
        obtain ⟨e, he⟩ := hfails [] dims rest rfl
        rcases hrun : (perform (.setUpMirror dims)).run t with ⟨answer, t'⟩
        rw [OutputSession.after, List.foldl_nil, hrun] at he
        subst he
        obtain ⟨-, c', new, hproduct, hcontext, -⟩ := (h.tries dims).failed e t' hrun
        have hnext : t.next (.setUp dims) = t' := congrArg Prod.snd hrun
        have hready : (t.next (.setUp dims)).Ready o c' := by
          rw [hnext]
          exact ⟨hproduct, hcontext, h.mirror, h.size⟩
        exact ih hready hrest
      | free d a =>
        have hready : (t.next (.free d a)).Ready o c := ⟨h.product, h.context, h.mirror, h.size⟩
        exact ih hready hrest

/-- A session settles at the first call that succeeds. -/
theorem Ready.settles {answer : OutputAnswer} (h : t.Ready o c)
    (hrun : ((perform (.setUpMirror dims)).run t).1 = .ok answer) :
    ∃ d mirror c', c.site = .device d ∧ (t.next (.setUp dims)).Settled o mirror c' ∧
      o.LaidOut mirror d ⟨c', (t.next (.setUp dims)).machine⟩ := by
  rcases hfull : (perform (.setUpMirror dims)).run t with ⟨x, t'⟩
  rw [hfull] at hrun
  subst hrun
  obtain ⟨d, mirror, c', new, hsite, hproduct, hcontext, -, -, hlaid⟩ :=
    (h.tries dims).succeeded answer t' hfull
  rw [OutputSession.next, hfull]
  exact ⟨d, mirror, c', hsite, ⟨hproduct, hcontext⟩, hlaid⟩

theorem ready_of_allocated {plan : Plan} {request : OutputRequest} {m : Machine}
    (hstart : allocated plan request c m = .ok t₀) : ∃ o, t₀.Ready o c := by
  obtain ⟨o, hproduct, hcontext, hzeroed⟩ := allocated_ok hstart
  exact ⟨o, hproduct, hcontext, hzeroed.mirror, hzeroed.storageBytes_le⟩

/-- Mirroring succeeds once. Whatever calls and frees there are, dropping the context leaves the
device memory that the frees alone would have left. As long as all calls fail, the buffers are as
they were allocated, there is nothing to copy back, and the next call has its chance, as `Tries`
says. After one has succeeded, further calls are internal errors that change nothing, and copying
back reads its mirror, which is there until somebody frees what the context owns. -/
theorem mirror_set_up_once {plan : Plan} {request : OutputRequest} {m : Machine}
    (hstart : allocated plan request c m = .ok t₀) (events : List MirrorEvent) :
    ∃ o c', t₀.product = some (.buffers o) ∧ (t₀.after events).context = some c' ∧
      c'.site = c.site ∧
      (c'.release (t₀.after events).machine).heap = (c.release t₀.machine).heap.afterFrees events ∧
      (t₀.Unmirrored events → (t₀.after events).product = some (.buffers o) ∧
        (∀ d rows, (perform (.copyBack rows d)).run (t₀.after events) =
          (.error .noMirror, t₀.after events)) ∧
        ∀ dims, (t₀.after events).Tries o c' dims) ∧
      ∀ before dims later answer, events = before ++ .setUp dims :: later →
        ((perform (.setUpMirror dims)).run (t₀.after before)).1 = .ok answer → ∃ d mirror,
          c.site = .device d ∧
          ((perform (.setUpMirror dims)).run (t₀.after before)).2.product =
            some (.buffers { o with mirror := some mirror }) ∧
          (t₀.after events).product = some (.buffers { o with mirror := some mirror }) ∧
          OutputBuffers.CopiesBack { o with mirror := some mirror } mirror ∧
          (∀ dims', ∃ e, e.kind = .internal ∧
            (perform (.setUpMirror dims')).run (t₀.after events) = (.error e, t₀.after events)) ∧
          ((∀ d' a, MirrorEvent.free d' a ∈ later → (d'.slot, a.value) ∉ c'.keys) →
            mirror.Holds o.result d (t₀.after events).machine.heap) := by
  obtain ⟨o, hready₀⟩ := ready_of_allocated hstart
  obtain ⟨c', hsite, hheap, hend⟩ := hready₀.after events
  have hcontext : (t₀.after events).context = some c' := by
    rcases hend with hready | ⟨mirror, hsettled⟩
    · exact hready.context
    · exact hsettled.context
  refine ⟨o, c', hready₀.product, hcontext, hsite, hheap, ?_, ?_⟩
  · intro hfails
    obtain ⟨c'', hready⟩ := hready₀.after_unmirrored hfails
    obtain rfl : c'' = c' := Option.some.inj (hready.context.symm.trans hcontext)
    refine ⟨hready.product, ?_, hready.tries⟩
    intro d rows
    exact run_copyBack_error hready.product
      (OutputBuffers.copyBack_unmirrored _ d rows hready.mirror)
  · rintro before dims later answer rfl hok
    obtain ⟨c₁, hsite₁, -, hready₁ | ⟨mirror, hsettled₁⟩⟩ := hready₀.after before
    swap
    · -- a mirror that is there before this call would have made it fail
      rw [run_setUpMirror_again hsettled₁.product hsettled₁.context rfl dims] at hok
      cases hok
    obtain ⟨d, mirror, c₂, hdevice, hsettled, hlaid⟩ := hready₁.settles hok
    have hafter : t₀.after (before ++ .setUp dims :: later) =
        ((t₀.after before).next (.setUp dims)).after later := t₀.after_append before _
    rw [hafter] at hcontext ⊢
    have hsettled' := (hsettled.after later).1
    obtain rfl : c₂ = c' := Option.some.inj (hsettled'.context.symm.trans hcontext)
    refine ⟨d, mirror, hsite₁.symm.trans hdevice, hsettled.product, hsettled'.product,
      copiesBack rfl hready₀.size, ?_, ?_⟩
    · intro dims'
      exact ⟨.mirrorExists, rfl,
        run_setUpMirror_again hsettled'.product hsettled'.context rfl dims'⟩
    · intro hspares
      exact (hsettled.laidOut_after hlaid hspares).holds

/-- A device with room for three allocations has two already. The first call gets one and is refused
the other; once both have been freed, the second call succeeds, and the third is an internal error.
Dropping the context leaves nothing on the device. -/
theorem mirror_set_up_once_second :
    let d : Device := { slot := 0, id := 0, maxLive := some 3 }
    let plan : Plan :=
      { name := "f", inputs := [], outputs := [⟨"x", .int .w64⟩], sizing := none }
    let request : OutputRequest :=
      { layout := .ofPlan plan, deviceId := 0, deviceType := .gpu, rows := 1, inputGroups := [[]],
        offsetGroups := [[]] }
    let busier (m : Machine) : Machine := ((m.allocDevice d 8).toOption.map Prod.snd).getD m
    let events : List MirrorEvent :=
      [.setUp {}, .free d (.ofNat firstAddress), .free d (.ofNat (firstAddress + spanOf 8)),
      .setUp {}]
    ∃ (t₀ : OutputSession) (o : OutputBuffers) (mirror : Mirror) (c : Context),
      allocated plan request { site := .device d } (busier (busier {})) = .ok t₀ ∧
      (∃ e, ((perform (.setUpMirror {})).run t₀).1 = .error e) ∧
      (t₀.after events).product = some (.buffers { o with mirror := some mirror }) ∧
      mirror.Holds o.result d (t₀.after events).machine.heap ∧
      (∃ e, e.kind = .internal ∧
        (perform (.setUpMirror {})).run (t₀.after events) = (.error e, t₀.after events)) ∧
      (t₀.after events).context = some c ∧
      (c.release (t₀.after events).machine).heap.blocks = [] := by
  intro d plan request busier events
  have hanswers : ((allocated plan request { site := .device d } (busier (busier {}))).toOption.map
      fun t => (((perform (.setUpMirror {})).run t).1.toOption.isSome,
        ((perform (.setUpMirror {})).run (t.after (events.take 3))).1.toOption.isSome,
        ((t.after events).context.map fun c =>
          (c.release (t.after events).machine).heap.blocks))) = some (false, true, some []) := by
    decide +kernel
  rcases hstart : allocated plan request { site := .device d } (busier (busier {})) with e | t₀
  · rw [hstart] at hanswers
    cases hanswers
  rw [hstart] at hanswers
  simp only [Except.toOption, Option.map_some, Option.some.injEq, Prod.mk.injEq] at hanswers
  obtain ⟨hfirst, hsecond, hdropped⟩ := hanswers
  obtain ⟨o, c, -, hcontext, -, -, -, hmirrored⟩ := mirror_set_up_once hstart events
  rw [hcontext, Option.map_some, Option.some.injEq] at hdropped
  rcases hrun₁ : ((perform (.setUpMirror {})).run t₀).1 with e | answer₁
  swap
  · rw [hrun₁] at hfirst
    cases hfirst
  rcases hrun₂ : ((perform (.setUpMirror {})).run (t₀.after (events.take 3))).1 with e₂ | answer₂
  · rw [hrun₂] at hsecond
    cases hsecond
  obtain ⟨d', mirror, hsite, -, hproduct, -, hagain, hholds⟩ :=
    hmirrored (events.take 3) {} [] answer₂ rfl hrun₂
  cases hsite
  have hspares : ∀ (d' : Device) (a : Address), MirrorEvent.free d' a ∈ [] →
      (d'.slot, a.value) ∉ c.keys := by
    intro d' a hmem
    cases hmem
  exact ⟨t₀, o, mirror, c, rfl, ⟨e, hrun₁⟩, hproduct, hholds hspares, hagain {}, hcontext, hdropped⟩

end OutputSession

end KernelDispatch
