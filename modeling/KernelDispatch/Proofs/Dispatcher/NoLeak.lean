import KernelDispatch.Dispatcher.History
import KernelDispatch.Proofs.Dispatcher.Reconciliation

/-!
# Nothing is leaked

An execution leaves the device memory as it found it and, if it has a result, the storage of the
result reserved. Over a sequence of executions the bytes in use are those at the start and those of
the results that are left, as the events and the outcomes of the executions tell. The counts are
words: they are equal as numbers as long as they stay below `2 ^ 64`.
-/

namespace KernelDispatch

def ResultSet.heldBytes (r : ResultSet) : ℕ := 8 * r.columnCount * r.capacity

def answerBytes : Except Failure ResultSet → ℕ
  | .ok r => r.heldBytes
  | .error _ => 0

def keptBytes (kept : List (Option ResultSet)) : ℕ :=
  (kept.map fun r? => r?.elim 0 ResultSet.heldBytes).sum

/-- The results that are left after one more event: a call may add its result, a drop takes one
out. -/
def leave (kept : List (Option ResultSet)) :
    Event × Option Dispatcher.Outcome → List (Option ResultSet)
  | (.call c, some outcome) => if c.keep then kept ++ [outcome.result.toOption] else kept
  | (.call _, none) => kept
  | (.drop position, _) => kept.set position none

theorem keptBytes_append (kept : List (Option ResultSet)) (r? : Option ResultSet) :
    keptBytes (kept ++ [r?]) = keptBytes kept + r?.elim 0 ResultSet.heldBytes := by
  simp [keptBytes]

theorem keptBytes_set_none {kept : List (Option ResultSet)} {position : ℕ} {r : ResultSet}
    (h : kept[position]? = some (some r)) :
    keptBytes (kept.set position none) + r.heldBytes = keptBytes kept := by
  induction kept generalizing position with
  | nil => cases h
  | cons first rest ih =>
    cases position with
    | zero =>
      cases h
      simp [keptBytes, Nat.add_comm]
    | succ position =>
      have hrest : keptBytes (rest.set position none) + r.heldBytes = keptBytes rest :=
        ih (by simpa using h)
      simp only [keptBytes, List.set_cons_succ, List.map_cons, List.sum_cons] at hrest ⊢
      omega

namespace Dispatcher

variable {D : Dispatcher} {plan : Plan} {table : Table} {code : Option CompiledFunction}
  {columns : ColumnStore} {target : DeviceType} {m : Machine}

theorem footprint_of_result {r : ResultSet}
    (h : (D.execute plan table code columns target m).result = .ok r) :
    r.storage.footprint = r.heldBytes := by
  cases hprepare : D.prepare plan table code target with
  | error e =>
    rw [execute_of_prepare_error hprepare] at h
    cases h
  | ok fc =>
    rcases (execute_account columns m hprepare).2.2 with ⟨e, he, -, -⟩ | ⟨given, effect, hsettles⟩
    · rw [he] at h
      cases h
    · have hshows := hsettles.shows h
      rw [hshows.footprint, ResultSet.heldBytes, ResultSet.columnCount, hshows.types,
        hshows.capacity, Plan.outputTypes, List.length_map, Nat.mul_assoc]

theorem execute_machine (D : Dispatcher) (plan : Plan) (table : Table)
    (code : Option CompiledFunction) (columns : ColumnStore) (target : DeviceType) (m : Machine) :
    let outcome := D.execute plan table code columns target m
    outcome.machine.heap = m.heap ∧ outcome.machine.budget.limit = m.budget.limit ∧
      outcome.machine.budget.inUse =
        m.budget.inUse + BitVec.ofNat 64 (answerBytes outcome.result) := by
  intro outcome
  have hfootprint : answerFootprint outcome.result = answerBytes outcome.result := by
    cases hresult : outcome.result with
    | ok r => exact footprint_of_result hresult
    | error e => rfl
  cases hprepare : D.prepare plan table code target with
  | error e =>
    have houtcome : outcome = { result := .error e, machine := m } :=
      execute_of_prepare_error hprepare
    rw [houtcome]
    exact ⟨rfl, rfl, (BitVec.add_zero _).symm⟩
  | ok fc =>
    obtain ⟨hheap, hbudget, -⟩ := execute_account columns m hprepare
    have hlimit := congrArg Budget.limit hbudget
    have hinUse := congrArg Budget.inUse hbudget
    rw [← hfootprint]
    exact ⟨hheap, hlimit, hinUse⟩

end Dispatcher

namespace History

/-- The device memory is that of `m`, and what is in use beyond `m` is what kept results hold. -/
structure Balanced (m : Machine) (h : History) : Prop where
  heap : h.machine.heap = m.heap
  limit : h.machine.budget.limit = m.budget.limit
  inUse : h.machine.budget.inUse = m.budget.inUse + BitVec.ofNat 64 (keptBytes h.kept)
  footprints : ∀ r, some r ∈ h.kept → r.storage.footprint = r.heldBytes

variable {m : Machine} {h : History}

/-- The outcome of a call on the machine of a history. -/
def outcome (h : History) (c : Call) : Dispatcher.Outcome :=
  c.dispatcher.execute c.plan c.table c.code h.columns c.target h.machine

theorem inUse_outcome (hh : Balanced m h) (c : Call) :
    (h.outcome c).machine.budget.inUse = m.budget.inUse +
      BitVec.ofNat 64 (keptBytes h.kept + answerBytes (h.outcome c).result) := by
  have hbudget : (h.outcome c).machine.budget.inUse =
      h.machine.budget.inUse + BitVec.ofNat 64 (answerBytes (h.outcome c).result) :=
    (c.dispatcher.execute_machine ..).2.2
  rw [hbudget, hh.inUse, BitVec.add_assoc, ← BitVec.ofNat_add]

theorem call_eq (h : History) (c : Call) :
    (h.call c).2 =
      if c.keep then
        { h with
          machine := (h.outcome c).machine
          kept := h.kept ++ [(h.outcome c).result.toOption] }
      else
        { h with
          machine := (h.outcome c).result.toOption.elim (h.outcome c).machine fun r =>
            r.release (h.outcome c).machine } := by
  unfold History.call outcome
  simp only
  split_ifs
  · rfl
  · cases Except.toOption _ <;> rfl

theorem Balanced.start (columns : ColumnStore) (m : Machine) :
    Balanced m { columns, machine := m } where
  heap := rfl
  limit := rfl
  inUse := by simp [keptBytes]
  footprints := fun r hr => absurd hr List.not_mem_nil

theorem Balanced.call (hh : Balanced m h) (c : Call) : Balanced m (h.call c).2 := by
  have hheap : (h.outcome c).machine.heap = m.heap :=
    (c.dispatcher.execute_machine ..).1.trans hh.heap
  have hlimit : (h.outcome c).machine.budget.limit = m.budget.limit :=
    (c.dispatcher.execute_machine ..).2.1.trans hh.limit
  have hinUse := inUse_outcome hh c
  rw [call_eq]
  cases hresult : (h.outcome c).result with
  | error e =>
    rw [hresult] at hinUse
    split_ifs
    · refine ⟨hheap, hlimit, ?_, fun r hr => hh.footprints r ?_⟩
      · rw [keptBytes_append]
        exact hinUse
      · exact (List.mem_append.mp hr).resolve_right fun hnew => nomatch List.mem_singleton.mp hnew
    · exact ⟨hheap, hlimit, hinUse, hh.footprints⟩
  | ok r =>
    have hfootprint : r.storage.footprint = r.heldBytes := Dispatcher.footprint_of_result hresult
    rw [hresult] at hinUse
    split_ifs
    · refine ⟨hheap, hlimit, ?_, fun r' hr' => ?_⟩
      · rw [keptBytes_append]
        exact hinUse
      · rcases List.mem_append.mp hr' with hold | hnew
        · exact hh.footprints r' hold
        · obtain rfl : r' = r := Option.some.inj (List.mem_singleton.mp hnew)
          exact hfootprint
    · refine ⟨hheap, hlimit, ?_, hh.footprints⟩
      change (h.outcome c).machine.budget.inUse - BitVec.ofNat 64 r.storage.footprint = _
      rw [hinUse, hfootprint, answerBytes, BitVec.ofNat_add, ← BitVec.add_assoc,
        BitVec.add_sub_cancel]

theorem Balanced.drop (hh : Balanced m h) (position : ℕ) : Balanced m (h.drop position) := by
  unfold History.drop
  split
  · rename_i r hr
    have hsum := keptBytes_set_none hr
    have hfootprint := hh.footprints r (List.mem_of_getElem? hr)
    refine ⟨hh.heap, hh.limit, ?_, fun r' hr' => hh.footprints r' ?_⟩
    · change h.machine.budget.inUse - BitVec.ofNat 64 r.storage.footprint = _
      rw [hh.inUse, hfootprint, ← hsum, BitVec.ofNat_add, ← BitVec.add_assoc, BitVec.add_sub_cancel]
    · rcases List.mem_or_eq_of_mem_set hr' with hmem | heq
      · exact hmem
      · cases heq
  · exact hh

/-- What a history keeps is what the event and its outcome leave. -/
theorem leave_step (h : History) (e : Event) :
    leave h.kept (e, (h.step e).1) = (h.step e).2.kept := by
  cases e with
  | call c =>
    have houtcome : (h.call c).1 = h.outcome c := by
      unfold History.call
      split_ifs <;> rfl
    change leave h.kept (.call c, some (h.call c).1) = (h.call c).2.kept
    rw [houtcome, call_eq, leave]
    split_ifs <;> rfl
  | drop position =>
    change h.kept.set position none = (h.drop position).kept
    unfold History.drop
    split
    · rfl
    · rename_i hnone
      refine set_none_of_join ?_
      rcases hkept : h.kept[position]? with _ | _ | r
      · rfl
      · rfl
      · exact absurd hkept (hnone r)

/-- The results that are left before each of the events and after the last are those of the
history. -/
theorem scanl_leave (events : List Event) (h : History) :
    (events.zip ((run events h).map (·.1))).scanl leave h.kept =
      (h :: (run events h).map (·.2)).map kept := by
  induction events generalizing h with
  | nil => rfl
  | cons e rest ih =>
    simp only [run, List.map_cons, List.zip_cons_cons, List.scanl_cons, leave_step, ih]

theorem Balanced.step (hh : Balanced m h) (e : Event) : Balanced m (h.step e).2 := by
  cases e with
  | call c => exact hh.call c
  | drop position => exact hh.drop position

theorem Balanced.run (hh : Balanced m h) (events : List Event) :
    ∀ h' ∈ h :: (run events h).map (·.2), Balanced m h' := by
  induction events generalizing h with
  | nil =>
    intro h' hmem
    rw [List.mem_singleton.mp hmem]
    exact hh
  | cons e rest ih =>
    intro h' hmem
    rcases List.mem_cons.mp hmem with rfl | hlater
    · exact hh
    · exact ih (hh.step e) h' hlater

end History

/-- However an execution ends, it leaves the device memory as it was and in use what was in use
before and what its result holds. Hence after any events what is in use is what was in use at the
start and what the results hold that the events have left. -/
theorem only_results_stay_reserved :
    (∀ (D : Dispatcher) (plan : Plan) (table : Table) (code : Option CompiledFunction)
        (columns : ColumnStore) (target : DeviceType) (m : Machine),
      let outcome := D.execute plan table code columns target m
      outcome.machine.heap = m.heap ∧ outcome.machine.budget.limit = m.budget.limit ∧
        outcome.machine.budget.inUse =
          m.budget.inUse + BitVec.ofNat 64 (answerBytes outcome.result) ∧
        (m.budget.inUse.toNat + answerBytes outcome.result < sizeBound →
          outcome.machine.budget.inUse.toNat =
            m.budget.inUse.toNat + answerBytes outcome.result)) ∧
    ∀ (columns : ColumnStore) (m : Machine) (events : List Event),
      let start : History := { columns, machine := m }
      let visited := start :: (History.run events start).map (·.2)
      let left := (events.zip ((History.run events start).map (·.1))).scanl leave []
      visited.length = left.length ∧ ∀ p ∈ visited.zip left,
        p.1.machine.heap = m.heap ∧ p.1.machine.budget.limit = m.budget.limit ∧
          p.1.machine.budget.inUse = m.budget.inUse + BitVec.ofNat 64 (keptBytes p.2) ∧
          (m.budget.inUse.toNat + keptBytes p.2 < sizeBound →
            p.1.machine.budget.inUse.toNat = m.budget.inUse.toNat + keptBytes p.2) := by
  constructor
  · intro D plan table code columns target m outcome
    obtain ⟨hheap, hlimit, hinUse⟩ := D.execute_machine plan table code columns target m
    refine ⟨hheap, hlimit, hinUse, fun hbound => ?_⟩
    rw [hinUse]
    exact toNat_add_ofNat hbound
  · intro columns m events start visited left
    have hleft : left = visited.map History.kept := History.scanl_leave events start
    refine ⟨by rw [hleft, List.length_map], ?_⟩
    rintro ⟨h, kept⟩ hp
    have hzip : (h, kept) ∈ visited.zip (visited.map History.kept) := hleft ▸ hp
    obtain ⟨hvisited, rfl⟩ := mem_zip_map hzip
    have hbalanced := (History.Balanced.start columns m).run events h hvisited
    refine ⟨hbalanced.heap, hbalanced.limit, hbalanced.inUse, fun hbound => ?_⟩
    rw [hbalanced.inUse]
    exact toNat_add_ofNat hbound

/-- Of two results that are kept the first is dropped, and a third is not kept. -/
theorem only_results_stay_reserved_counting :
    let call : Call :=
      { dispatcher := Sample.dispatcher
        plan := Sample.plan
        table := Sample.table
        code := some Sample.code
        target := .gpu }
    let start : History := { columns := Sample.columns }
    let events : List Event := [.call { call with keep := true }, .call { call with keep := true },
      .drop 0, .call call, .drop 0, .drop 1]
    let visited := start :: (History.run events start).map (·.2)
    let left := (events.zip ((History.run events start).map (·.1))).scanl leave []
    left.map keptBytes = [0, 8, 16, 8, 8, 8, 0] ∧
      (∀ p ∈ visited.zip left, p.1.machine.budget.inUse.toNat = keptBytes p.2) ∧
      (Sample.dispatcher.execute Sample.plan Sample.table (some Sample.code) Sample.columns .gpu
        {}).machine.budget.inUse = 8 := by
  intro call start events visited left
  have hleft : left.map keptBytes = [0, 8, 16, 8, 8, 8, 0] := by decide +kernel
  have hbytes : answerBytes (Sample.dispatcher.execute Sample.plan Sample.table (some Sample.code)
      Sample.columns .gpu {}).result = 8 := by decide +kernel
  refine ⟨hleft, fun p hp => ?_, ?_⟩
  · obtain ⟨-, hrun⟩ := only_results_stay_reserved.2 Sample.columns {} events
    obtain ⟨-, -, -, hinUse⟩ := hrun p hp
    have hmem := List.mem_map_of_mem (f := keptBytes) (List.of_mem_zip hp).2
    rw [hleft] at hmem
    have hbound := (by decide : ∀ n ∈ [0, 8, 16, 8, 8, 8, 0], n < sizeBound) _ hmem
    rw [hinUse (by simpa using hbound)]
    exact Nat.zero_add _
  · obtain ⟨-, -, hinUse, -⟩ := only_results_stay_reserved.1 Sample.dispatcher Sample.plan
      Sample.table (some Sample.code) Sample.columns .gpu {}
    rw [hinUse, hbytes]
    rfl

end KernelDispatch
