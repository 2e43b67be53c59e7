import KernelDispatch.Proofs.Demand
import KernelDispatch.Proofs.Inputs

/-!
# What the operations of a context demand

Each operation that acquires a buffer makes one demand and fails only if it is refused: a copy into
memory that was just allocated always succeeds.
-/

namespace KernelDispatch

namespace Machine

variable {m m' : Machine} {n : ℕ} {e : Failure}

theorem newBuffer_grants {b : HostBuffer} (h : (newBuffer n).run m = (.ok b, m')) :
    m.Grants [.host (8 * slotsFor n)] m' :=
  ⟨m', (grantAll_singleton _ _).trans (newBuffer_eq_ok_iff.mp h).1, .refl m'⟩

theorem newBuffer_stops (h : (newBuffer n).run m = (.error e, m')) :
    m.Stops [.host (8 * slotsFor n)] e := by
  rcases (newBuffer_eq_error_iff.mp h).2 with hreserve | ⟨⟨m₁, hreserve⟩, hfresh⟩
  · exact Stops.refused ((grantAll_singleton _ _).trans hreserve)
  · obtain ⟨-, rfl⟩ := HostBuffer.fresh_eq_error_iff.mp hfresh
    exact Stops.checked ⟨m₁, (grantAll_singleton _ _).trans hreserve, .refl m₁⟩ rfl

theorem allocDevice_grants {d : Device} {a : Address} (h : m.allocDevice d n = .ok (a, m')) :
    m.Grants [.device d n] m' := by
  refine ⟨m', ?_, .refl m'⟩
  rw [grantAll_singleton, grant, h]
  rfl

theorem allocDevice_stops {d : Device} (h : m.allocDevice d n = .error e) :
    m.Stops [.device d n] e := by
  apply Stops.refused
  rw [grantAll_singleton, grant, h]
  rfl

theorem copyTo_ok {d : Device} {a : Address} {src : Bytes} (h : m.copyTo d a src = .ok m') :
    m'.budget = m.budget ∧
      m'.heap.blocks.map Block.extent = m.heap.blocks.map Block.extent := by
  obtain ⟨heap, hcopy, heq⟩ := bind_eq_ok_iff.mp h
  cases heq
  refine ⟨rfl, ?_⟩
  unfold Heap.copyTo Heap.store? at hcopy
  split_ifs at hcopy
  cases hcopy
  change (m.heap.blocks.map (Heap.writeIn _ a src)).map Block.extent = _
  rw [List.map_map]
  refine List.map_congr_left fun b _ => ?_
  simp only [Function.comp_apply, Heap.writeIn]
  split <;> simp [Block.extent]

theorem alike_copyTo {d : Device} {a : Address} {src : Bytes} (h : m.copyTo d a src = .ok m') :
    m.Alike m' := by
  obtain ⟨hbudget, hextents⟩ := copyTo_ok h
  exact ⟨.of_eq hbudget, hextents⟩

end Machine

namespace Scope

variable {α β : Type} {s s₀ : Scope} {d : Device} {n : ℕ} {src : Bytes} {ds : List Demand}

/-- From `s₀` the action makes these demands and no others. -/
def Demands (s₀ : Scope) (x : Action Scope α) (ds : List Demand) : Prop :=
  x.Meets (· = s₀) (fun _ s => s₀.machine.Grants ds s.machine) fun e _ => s₀.machine.Stops ds e

/-- One action after the other, unless a check of the first fails. -/
theorem Demands.bind {x : Action Scope α} {f : α → Action Scope β} {rest : List Demand}
    {post : α → Scope → Prop} {stop : Failure → Scope → Prop} (hdemands : s₀.Demands x ds)
    (hx : x.Meets (· = s₀) post stop)
    (hstop : ∀ e s, stop e s → e.isRefusal = false → rest = [])
    (hrest : ∀ a s, post a s → s.Demands (f a) rest) : s₀.Demands (x >>= f) (ds ++ rest) := by
  apply (hx.and hdemands).bind
  · rintro e s ⟨hs, hstops⟩
    exact hstops.append (hstop e s hs)
  · rintro a s ⟨hs, hgrants⟩
    refine (hrest a s hs).weaken (fun _ h => h) ?_ ?_ s rfl
    · exact fun b s' hmore => hgrants.append hmore
    · exact fun e s' hstops => hgrants.stops hstops

theorem Demands.map {x : Action Scope α} (h : s₀.Demands x ds) (g : α → β) :
    s₀.Demands (x >>= fun a => pure (g a)) ds :=
  Action.Meets.bind h (fun _ _ h => h) fun _ => Action.meets_pure fun _ h => h

theorem allocDevice_demands (hsite : s.context.site = .device d) :
    s.Demands (allocDevice n) [.device d n] := by
  apply (atomic_allocDevice n).meets
  · rintro s a s' rfl h
    obtain ⟨d', m, hsite', halloc, rfl⟩ := allocDevice_eq_ok_iff.mp h
    rw [hsite] at hsite'
    cases hsite'
    exact Machine.allocDevice_grants halloc
  · rintro s e rfl h
    rcases (allocDevice_eq_error h).2 with ⟨-, hhost⟩ | ⟨d', hsite', halloc⟩
    · rw [hsite] at hhost
      cases hhost
    · rw [hsite] at hsite'
      cases hsite'
      exact Machine.allocDevice_stops halloc

theorem allocDeviceWith_demands (hsite : s.context.site = .device d) (hlen : src.length ≤ n) :
    s.Demands (allocDeviceWith n src) [.device d n] := by
  have hfresh := allocDevice_demands (n := n) hsite
  rintro s rfl
  rcases allocDeviceWith_cases s hlen with ⟨d', a, m, m', hsite', halloc, hcopy, -, hboth⟩ |
    ⟨e, hrefused, hfail⟩
  · rw [hsite] at hsite'
    cases hsite'
    rw [hboth]
    exact (Machine.allocDevice_grants halloc).alike (Machine.alike_copyTo hcopy)
  · rw [hfail]
    exact hfresh.run_error rfl hrefused

theorem allocHost_demands : s.Demands (allocHost n src) [.host (8 * slotsFor n)] := by
  apply (atomic_allocHost n src).meets
  · rintro s b s' rfl h
    obtain ⟨fresh, m, hnew, -, rfl⟩ := allocHost_eq_ok_iff.mp h
    exact Machine.newBuffer_grants hnew
  · rintro s e rfl h
    exact Machine.newBuffer_stops (allocHost_eq_error h).2

theorem cell_demands (hlen : src.length ≤ slotBytes) :
    s.Demands (cell src) [s.context.site.demand slotBytes] := by
  rintro s rfl
  rw [run_cell hlen]
  cases hsite : s.context.site with
  | host => exact allocHost_demands.map _ s rfl
  | device d => exact (allocDeviceWith_demands hsite hlen).map _ s rfl

theorem literal_demands (value : Scalar) :
    s.Demands (literal value)
      (if value.literalBytes?.isSome then [s.context.site.demand slotBytes] else []) := by
  rw [literal]
  cases hbytes : value.literalBytes? with
  | none => exact Action.meets_fail fun _ _ => Machine.Stops.checked (.nil (.refl s.machine)) rfl
  | some bytes => exact cell_demands (Scalar.length_of_literalBytes? hbytes)

end Scope

namespace ColumnStore

variable {S : ColumnStore} {ref : ColumnRef} {deviceId : DeviceId} {m m' : Machine}
    {c : FetchedColumn}
  {e : Failure}

/-- The demand of a fetch for a context at this site. Columns on the host are served as they are. -/
def demands (S : ColumnStore) (ref : ColumnRef) (deviceId : DeviceId) : Site → List Demand
  | .host => []
  | .device _ =>
    match S.look ref .device deviceId, S.device with
    | .ok column, some d => [.device d (max column.bytes.length slotBytes)]
    | _, _ => []

theorem meets_copyToDevice (column : StoredColumn) (d : Device) (m₀ : Machine) :
    (copyToDevice column d).Meets (· = m₀)
      (fun _ m => m₀.Grants [.device d (max column.bytes.length slotBytes)] m)
      fun e _ => m₀.Stops [.device d (max column.bytes.length slotBytes)] e := by
  rintro m rfl
  rcases copyToDevice_cases column d m with ⟨a, m₁, m₂, halloc, hcopy, hrun⟩ | ⟨e, halloc, hrun⟩
  · rw [hrun]
    exact (Machine.allocDevice_grants halloc).alike (Machine.alike_copyTo hcopy)
  · rw [hrun]
    exact Machine.allocDevice_stops halloc

theorem meets_fetch_demands (S : ColumnStore) (ref : ColumnRef) (deviceId : DeviceId)
    (m₀ : Machine) (site : Site) :
    (S.fetch ref site.deviceType.memoryLevel deviceId).Meets (· = m₀)
      (fun _ m => m₀.Grants (S.demands ref deviceId site) m)
      fun e _ => m₀.Stops (S.demands ref deviceId site) e := by
  have hchecked {e : Failure} (he : e.isRefusal = false) :
      (Action.fail e : Action Machine FetchedColumn).Meets (· = m₀) (fun _ m => m₀.Grants [] m)
        fun e _ => m₀.Stops [] e :=
    Action.meets_fail fun _ _ => Machine.Stops.checked (.nil (.refl m₀)) he
  unfold fetch demands look
  cases hfind : S.find? ref.index with
  | none => cases site <;> exact hchecked rfl
  | some column =>
    cases site with
    | host =>
      rintro m rfl
      exact Machine.Grants.nil ⟨.refl _, rfl⟩
    | device d =>
      simp only [place, Site.deviceType, DeviceType.memoryLevel]
      cases hd : S.device with
      | none => exact hchecked rfl
      | some fd =>
        by_cases hid : fd.id = deviceId
        · simp only [if_pos hid]
          apply (meets_copyToDevice column fd m₀).bind fun _ _ h => h
          intro c m hgrants
          exact hgrants.alike ⟨.refl _, rfl⟩
        · simp only [if_neg hid]
          exact hchecked rfl

end ColumnStore

end KernelDispatch
