import KernelDispatch.Proofs.Dispatcher.Reconciliation
import KernelDispatch.Proofs.Inputs.Demands
import KernelDispatch.Proofs.Inputs.Holdings

/-!
# The first input at fault

Inputs are materialised in order until one of them is at fault: it is not resolved, a constant
without a cell, a column that is not served, an input that is refused memory, or a column that does
not have as many rows as the first one. The inputs before it are held by the context and nothing
else is; the inputs behind it are never looked at.
-/

namespace KernelDispatch.Inputs

section Definitions

variable (store : ColumnStore) (function : String) (deviceId : DeviceId) (site : Site) (m : Machine)

def firstCount? (inputs : List InputExpr) : Option ℕ := inputs.findSome? (·.count? store)

/-- Input `k` of an invocation at `site` that starts on `m` is at fault. A column is compared with
the first one once it has been granted its memory. -/
inductive Fault (inputs : List InputExpr) (k : ℕ) : Failure → Prop
  | unresolved {description : String} (hinput : inputs[k]? = some (.unresolved description)) :
      Fault inputs k (.unresolvedInput function k description)
  | unsupported {value : Scalar} (hinput : inputs[k]? = some (.constant value))
      (hvalue : ¬value.HasCell) : Fault inputs k (.unsupportedLiteral value)
  | unserved {ref : ColumnRef} {e : Failure} (hinput : inputs[k]? = some (.column ref))
      (hlook : store.look ref site.deviceType.memoryLevel deviceId = .error e) : Fault inputs k e
  | refused {input : InputExpr} {m' : Machine} {e : Failure} (hinput : inputs[k]? = some input)
      (hbefore : Machine.grantAll ((inputs.take k).flatMap (demandsOne store deviceId site)) m =
        .ok m')
      (hrefused : Machine.grantAll (demandsOne store deviceId site input) m' = .error e) :
      Fault inputs k e
  | mismatched {ref : ColumnRef} {c : StoredColumn} {m' : Machine} {first : ℕ}
      (hinput : inputs[k]? = some (.column ref))
      (hlook : store.look ref site.deviceType.memoryLevel deviceId = .ok c)
      (hgranted : Machine.grantAll ((inputs.take (k + 1)).flatMap (demandsOne store deviceId site))
        m = .ok m')
      (hfirst : firstCount? store inputs = some first) (hne : c.count ≠ first) :
      Fault inputs k (.rowCountMismatch function k first c.count)

/-- All inputs were materialised in a context that was empty at first. -/
structure Materialized (inputs : List InputExpr) (r : Inputs) (s : Scope) : Prop where
  site_eq : s.context.site = site
  buffers : r.buffers.length = inputs.length
  allocations : s.context.allocations.length = inputs.length
  /-- For each input the context holds one allocation, which shows the bytes of the input. -/
  held : ∀ (i : ℕ) (input : InputExpr), inputs[i]? = some input → ∃ b x bytes,
    r.buffers[i]? = some b ∧ s.context.allocations[i]? = some x ∧ input.HeldBy store i site b x ∧
    input.bytes? store = some bytes ∧ s.Offers b bytes
  /-- The row count is that of the first column, and of every other one. -/
  rows : r.rows = firstCount? store inputs
  agree : ∀ input ∈ inputs, ∀ n, input.count? store = some n → r.rows = some n
  no_column : r.rows = none ↔ ∀ input ∈ inputs, input.isColumn = false
  fetches : s.machine.fetches = m.fetches + inputs.countP (·.isColumn)
  /-- All that was taken from the machine is held by the context. -/
  ledger : Ledger m 0 s
  /-- The machine has granted what the inputs demand. -/
  granted : m.Grants (inputs.flatMap (demandsOne store deviceId site)) s.machine

end Definitions

variable {store : ColumnStore} {function : String} {deviceId : DeviceId} {index : ℕ}
  {rows : Option ℕ} {site : Site} {m : Machine} {s s' : Scope} {e : Failure}

section Runs

variable {x : InputExpr} {xs ys inputs rest : List InputExpr} {r : Inputs}

theorem allFrom_cons_ok_iff :
    (allFrom store function deviceId index rows (x :: rest)).run s = (.ok r, s') ↔
      ∃ b now s₁ others, (one store function deviceId index rows x).run s = (.ok (b, now), s₁) ∧
        (allFrom store function deviceId (index + 1) now rest).run s₁ = (.ok others, s') ∧
        r = ⟨b :: others.buffers, others.rows⟩ := by
  rw [allFrom, Action.run_bind_eq_ok_iff]
  constructor
  · rintro ⟨⟨b, now⟩, s₁, hone, hrest⟩
    obtain ⟨others, s₂, hothers, hpure⟩ := Action.run_bind_eq_ok_iff.mp hrest
    cases hpure
    exact ⟨b, now, s₁, others, hone, hothers, rfl⟩
  · rintro ⟨b, now, s₁, others, hone, hothers, rfl⟩
    exact ⟨(b, now), s₁, hone, Action.run_bind_eq_ok_iff.mpr ⟨others, s', hothers, rfl⟩⟩

theorem allFrom_cons_error_iff :
    (allFrom store function deviceId index rows (x :: rest)).run s = (.error e, s') ↔
      (one store function deviceId index rows x).run s = (.error e, s') ∨
      ∃ b now s₁, (one store function deviceId index rows x).run s = (.ok (b, now), s₁) ∧
        (allFrom store function deviceId (index + 1) now rest).run s₁ = (.error e, s') := by
  rw [allFrom, Action.run_bind_eq_error_iff]
  refine or_congr_right ?_
  constructor
  · rintro ⟨⟨b, now⟩, s₁, hone, hrest⟩
    rcases Action.run_bind_eq_error_iff.mp hrest with hothers | ⟨others, s₂, -, hpure⟩
    · exact ⟨b, now, s₁, hone, hothers⟩
    · cases hpure
  · rintro ⟨b, now, s₁, hone, hothers⟩
    exact ⟨(b, now), s₁, hone, Action.run_bind_eq_error_iff.mpr (Or.inl hothers)⟩

theorem allFrom_append_ok_iff :
    (allFrom store function deviceId index rows (xs ++ ys)).run s = (.ok r, s') ↔
      ∃ r₁ s₁ r₂, (allFrom store function deviceId index rows xs).run s = (.ok r₁, s₁) ∧
        (allFrom store function deviceId (index + xs.length) r₁.rows ys).run s₁ = (.ok r₂, s') ∧
        r = ⟨r₁.buffers ++ r₂.buffers, r₂.rows⟩ := by
  induction xs generalizing index rows s r with
  | nil =>
    constructor
    · intro h
      exact ⟨⟨[], rows⟩, s, r, rfl, h, rfl⟩
    · rintro ⟨r₁, s₁, r₂, hnone, hys, rfl⟩
      cases hnone
      exact hys
  | cons x xs ih =>
    have hindex : index + (x :: xs).length = index + 1 + xs.length := by
      rw [List.length_cons]
      omega
    rw [List.cons_append, allFrom_cons_ok_iff, hindex]
    constructor
    · rintro ⟨b, now, s₁, others, hone, hothers, rfl⟩
      obtain ⟨r₁, s₂, r₂, hxs, hys, rfl⟩ := ih.mp hothers
      exact ⟨_, s₂, r₂, allFrom_cons_ok_iff.mpr ⟨b, now, s₁, r₁, hone, hxs, rfl⟩, hys, rfl⟩
    · rintro ⟨r₀, s₂, r₂, hcons, hys, rfl⟩
      obtain ⟨b, now, s₁, r₁, hone, hxs, rfl⟩ := allFrom_cons_ok_iff.mp hcons
      exact ⟨b, now, s₁, _, hone, ih.mpr ⟨r₁, s₂, r₂, hxs, hys, rfl⟩, rfl⟩

/-- Where materialising stops: the inputs before it were materialised, and it fails from there. -/
theorem allFrom_error_iff :
    (allFrom store function deviceId index rows inputs).run s = (.error e, s') ↔
      ∃ pre x rest r₁ s₁, inputs = pre ++ x :: rest ∧
        (allFrom store function deviceId index rows pre).run s = (.ok r₁, s₁) ∧
        (one store function deviceId (index + pre.length) r₁.rows x).run s₁ = (.error e, s') := by
  induction inputs generalizing index rows s with
  | nil =>
    constructor
    · rintro ⟨⟩
    · rintro ⟨pre, x, rest, -, -, hnil, -⟩
      exact absurd hnil.symm (by simp)
  | cons input inputs ih =>
    rw [allFrom_cons_error_iff]
    constructor
    · rintro (hone | ⟨b, now, s₁, hone, hothers⟩)
      · exact ⟨[], input, inputs, ⟨[], rows⟩, s, rfl, rfl, hone⟩
      · obtain ⟨pre, x, rest, r₁, s₂, rfl, hpre, hx⟩ := ih.mp hothers
        refine ⟨input :: pre, x, rest, _, s₂, rfl,
          allFrom_cons_ok_iff.mpr ⟨b, now, s₁, r₁, hone, hpre, rfl⟩, ?_⟩
        rw [List.length_cons, Nat.add_comm pre.length, ← Nat.add_assoc]
        exact hx
    · rintro ⟨_ | ⟨first, pre⟩, x, rest, r₁, s₁, heq, hpre, hx⟩
      · cases heq
        cases hpre
        exact Or.inl hx
      · cases heq
        obtain ⟨b, now, s₂, r₂, hone, hrest, rfl⟩ := allFrom_cons_ok_iff.mp hpre
        rw [List.length_cons, Nat.add_comm pre.length, ← Nat.add_assoc] at hx
        exact Or.inr ⟨b, now, s₂, hone, ih.mpr ⟨pre, x, rest, r₂, s₁, rfl, hrest, hx⟩⟩

end Runs

section Steps

variable {x : InputExpr} {pre rest : List InputExpr} {r : Inputs} {b : Buffer} {now : Option ℕ}
  {bytes : Bytes} {level : MemoryLevel}

theorem bytes?_of_forecastOne
    (h : forecastOne store function level deviceId index rows x = .ok (bytes, now)) :
    x.bytes? store = some bytes := by
  cases x with
  | column ref =>
    obtain ⟨c, hlook, hone⟩ := bind_eq_ok_iff.mp h
    split_ifs at hone
    cases hone
    rw [InputExpr.bytes?, (ColumnStore.look_eq_ok_iff.mp hlook).1]
    rfl
  | constant value =>
    rw [forecastOne] at h
    rw [InputExpr.bytes?]
    cases hbytes : value.literalBytes? with
    | none =>
      rw [hbytes] at h
      cases h
    | some src =>
      rw [hbytes] at h
      cases h
      rfl
  | unresolved description => cases h

theorem count?_eq_none_iff (h : x.Available store level deviceId) :
    x.count? store = none ↔ x.isColumn = false := by
  cases x with
  | column ref =>
    obtain ⟨c, hfind⟩ := Option.isSome_iff_exists.mp h.1
    simp [InputExpr.count?, InputExpr.isColumn, hfind]
  | constant value => simp [InputExpr.count?, InputExpr.isColumn]
  | unresolved description => simp [InputExpr.count?, InputExpr.isColumn]

theorem firstCount?_append (xs ys : List InputExpr) :
    firstCount? store (xs ++ ys) = (firstCount? store xs).or (firstCount? store ys) :=
  List.findSome?_append

theorem materialized_nil (store : ColumnStore) (deviceId : DeviceId) (site : Site) (m : Machine) :
    Materialized store deviceId site m [] ⟨[], none⟩ ⟨{ site }, m⟩ where
  site_eq := rfl
  buffers := rfl
  allocations := rfl
  held _ _ h := by cases h
  rows := rfl
  agree _ h := absurd h List.not_mem_nil
  no_column := ⟨fun _ _ h => absurd h List.not_mem_nil, fun _ => rfl⟩
  fetches := rfl
  ledger := .start m site
  granted := .nil (.refl m)

/-- The row count after one more input: its own if it is a column, and the one before otherwise. A
column has as many rows as those before it. -/
theorem rows_of_forecastOne
    (h : forecastOne store function level deviceId index rows x = .ok (bytes, now)) :
    now = rows.or (x.count? store) ∧ (∀ n, x.count? store = some n → now = some n) ∧
      (∀ n, rows = some n → now = some n) ∧ (now = none ↔ rows = none ∧ x.isColumn = false) := by
  obtain ⟨havailable, hcount⟩ := forecastOne_passes_iff.mp ⟨bytes, h⟩
  rw [← count?_eq_none_iff havailable]
  cases hx : x.count? store with
  | none =>
    rw [hx] at hcount
    subst hcount
    simp
  | some n =>
    rw [hx] at hcount
    obtain ⟨rfl | rfl, rfl⟩ := hcount <;> simp

theorem Materialized.concat (h : Materialized store deviceId site m pre r s)
    (hone : (one store function deviceId pre.length r.rows x).run s = (.ok (b, now), s')) :
    Materialized store deviceId site m (pre ++ [x]) ⟨r.buffers ++ [b], now⟩ s' := by
  obtain ⟨hgrows, bytes, hforecast, hoffers⟩ := (meets_one s x).run_ok rfl hone
  obtain ⟨hfetches, a, new, hgain, hx⟩ := (meets_oneHeld s x).run_ok rfl hone
  have hgrants := (one_demands s x).run_ok rfl hone
  simp only at hforecast hx
  obtain ⟨hnow, hown, hothers, hnone⟩ := rows_of_forecastOne hforecast
  rw [h.site_eq] at hx hgrants
  rw [h.allocations] at hx
  have hcontext : s'.context.allocations = s.context.allocations ++ [a] :=
    congrArg Context.allocations hgain.context
  refine ⟨hgrows.site.trans h.site_eq, by simp [h.buffers], by simp [hcontext, h.allocations], ?_,
    ?_, ?_, ?_, ?_, hgrows.ledger h.ledger, ?_⟩
  · intro i input hinput
    rcases Nat.lt_trichotomy i pre.length with hlt | rfl | hgt
    · rw [List.getElem?_append_left hlt] at hinput
      obtain ⟨b', x', bs, hb, hx', hby, hbytes, hshows⟩ := h.held i input hinput
      refine ⟨b', x', bs, ?_, ?_, hby, hbytes, hgrows.offers hshows⟩
      · rw [List.getElem?_append_left (by rwa [h.buffers]), hb]
      · rw [hcontext, List.getElem?_append_left (by rwa [h.allocations]), hx']
    · rw [List.getElem?_concat_length] at hinput
      cases hinput
      refine ⟨b, a, bytes, ?_, ?_, hx, bytes?_of_forecastOne hforecast, hoffers⟩
      · rw [← h.buffers, List.getElem?_concat_length]
      · rw [hcontext, ← h.allocations, List.getElem?_concat_length]
    · rw [List.getElem?_eq_none (by simpa using hgt)] at hinput
      cases hinput
  · simp only [firstCount?_append, ← h.rows, hnow]
    simp [firstCount?]
  · intro input hinput n hn
    rcases List.mem_append.mp hinput with hpre | hlast
    · exact hothers n (h.agree input hpre n hn)
    · obtain rfl := List.mem_singleton.mp hlast
      exact hown n hn
  · rw [hnone, h.no_column, List.forall_mem_append, List.forall_mem_singleton]
  · rw [hfetches, h.fetches, List.countP_append, List.countP_singleton, Nat.add_assoc]
    cases x.isColumn <;> rfl
  · rw [List.flatMap_append, List.flatMap_singleton]
    exact h.granted.append hgrants

theorem materialized_of_run {inputs : List InputExpr}
    (h : (allFrom store function deviceId 0 none inputs).run ⟨{ site }, m⟩ = (.ok r, s)) :
    Materialized store deviceId site m inputs r s := by
  induction inputs using List.reverseRecOn generalizing r s with
  | nil =>
    cases h
    exact materialized_nil store deviceId site m
  | append_singleton pre x ih =>
    obtain ⟨r₁, s₁, r₂, hpre, hlast, rfl⟩ := allFrom_append_ok_iff.mp h
    obtain ⟨b, now, s₂, others, hone, hnone, rfl⟩ := allFrom_cons_ok_iff.mp hlast
    cases hnone
    rw [Nat.zero_add] at hone
    exact (ih hpre).concat hone

theorem one_error_iff :
    (∃ s', (one store function deviceId index rows x).run s = (.error e, s')) ↔
      Machine.grantAll (demandsOne store deviceId s.context.site x) s.machine = .error e ∨
      (∃ m', Machine.grantAll (demandsOne store deviceId s.context.site x) s.machine = .ok m') ∧
        forecastOne store function s.context.memoryLevel deviceId index rows x = .error e := by
  rcases hrun : (one store function deviceId index rows x).run s with ⟨e₀ | ⟨b, now⟩, s₁⟩
  · obtain ⟨-, hcause⟩ := (meets_one s x).run_error rfl hrun
    have hdemands : s.machine.Stops (demandsOne store deviceId s.context.site x) e₀ :=
      (one_demands s x).run_error rfl hrun
    unfold Machine.Stops at hdemands
    cases hgrants : Machine.grantAll (demandsOne store deviceId s.context.site x) s.machine with
    | ok m' =>
      rw [hgrants] at hdemands
      have hforecast := hcause.resolve_left fun hrefusal => nomatch hrefusal.symm.trans hdemands
      simp [hforecast]
    | error e' =>
      rw [hgrants] at hdemands
      simp only at hdemands
      simp [hdemands]
  · obtain ⟨-, bytes, hforecast, -⟩ := (meets_one s x).run_ok rfl hrun
    obtain ⟨m', hgrants, -⟩ := (one_demands s x).run_ok rfl hrun
    simp [hgrants, hforecast]

theorem demands_of_unserved {ref : ColumnRef}
    (h : store.look ref site.deviceType.memoryLevel deviceId = .error e) :
    store.demands ref deviceId site = [] := by
  cases site with
  | host => rfl
  | device d =>
    rw [ColumnStore.demands]
    rw [Site.deviceType, DeviceType.memoryLevel] at h
    rw [h]

theorem firstCount?_of_ne {n first : ℕ} (hx : x.count? store = some n) (hne : n ≠ first) :
    firstCount? store (pre ++ x :: rest) = some first ↔ firstCount? store pre = some first := by
  have hrest : firstCount? store (x :: rest) = some n := by
    rw [firstCount?, List.findSome?_cons, hx]
  rw [firstCount?_append, hrest]
  cases firstCount? store pre <;> simp [hne]

theorem take_middle : (pre ++ x :: rest).take (pre.length + 1) = pre ++ [x] := by
  rw [List.take_length_add_append]
  rfl

theorem count?_of_look {ref : ColumnRef} {c : StoredColumn}
    (h : store.look ref level deviceId = .ok c) :
    (InputExpr.column ref).count? store = some c.count := by
  rw [InputExpr.count?, (ColumnStore.look_eq_ok_iff.mp h).1]
  rfl

theorem forecastOne_column_error_iff {ref : ColumnRef} :
    forecastOne store function level deviceId index rows (.column ref) = .error e ↔
      store.look ref level deviceId = .error e ∨
      ∃ c first, store.look ref level deviceId = .ok c ∧ rows = some first ∧ c.count ≠ first ∧
        e = .rowCountMismatch function index first c.count := by
  constructor
  · intro h
    refine (bind_eq_error_iff.mp h).imp_right ?_
    rintro ⟨c, hlook, hone⟩
    cases rows with
    | none => cases hone
    | some first =>
      split_ifs at hone with hagrees
      · cases hone
      · cases hone
        refine ⟨c, first, hlook, rfl, ?_, rfl⟩
        rintro rfl
        exact hagrees (agrees_iff.mpr (Or.inr rfl))
  · rintro (hlook | ⟨c, first, hlook, rfl, hne, rfl⟩)
    · exact bind_eq_error_iff.mpr (Or.inl hlook)
    · have hagrees : ¬agrees (some first) c.count = true := by simpa [agrees] using hne.symm
      exact bind_eq_error_iff.mpr (Or.inr ⟨c, hlook, if_neg hagrees⟩)

/-- What stops an input that goes behind others: it is refused its memory, or a check turns it
down. -/
def Stopped (store : ColumnStore) (function : String) (deviceId : DeviceId) (site : Site)
    (pre : List InputExpr) (m : Machine) (x : InputExpr) (e : Failure) : Prop :=
  Machine.grantAll (demandsOne store deviceId site x) m = .error e ∨
  (∃ m', Machine.grantAll (demandsOne store deviceId site x) m = .ok m') ∧
    forecastOne store function site.deviceType.memoryLevel deviceId pre.length
      (firstCount? store pre) x = .error e

section Middle

variable {m₁ : Machine}
  (hbefore : Machine.grantAll (pre.flatMap (demandsOne store deviceId site)) m = .ok m₁)

include hbefore

theorem grantAll_middle :
    Machine.grantAll (((pre ++ x :: rest).take (pre.length + 1)).flatMap
      (demandsOne store deviceId site)) m =
        Machine.grantAll (demandsOne store deviceId site x) m₁ := by
  rw [take_middle, List.flatMap_append, Machine.grantAll_append, hbefore, List.flatMap_singleton]
  rfl

theorem stopped_of_fault (h : Fault store function deviceId site m (pre ++ x :: rest)
    pre.length e) : Stopped store function deviceId site pre m₁ x e := by
  have hx : (pre ++ x :: rest)[pre.length]? = some x := by simp
  cases h with
  | unresolved hinput =>
    cases hx.symm.trans hinput
    exact Or.inr ⟨⟨_, rfl⟩, rfl⟩
  | @unsupported value hinput hvalue =>
    cases hx.symm.trans hinput
    rw [Stopped, demandsOne, forecastOne, Scalar.literalBytes?_eq_none_iff.mpr hvalue]
    exact Or.inr ⟨⟨_, rfl⟩, rfl⟩
  | unserved hinput hlook =>
    cases hx.symm.trans hinput
    rw [Stopped, demandsOne, demands_of_unserved hlook]
    exact Or.inr ⟨⟨_, rfl⟩, forecastOne_column_error_iff.mpr (Or.inl hlook)⟩
  | refused hinput hgranted hrefused =>
    cases hx.symm.trans hinput
    rw [List.take_left, hbefore] at hgranted
    cases hgranted
    exact Or.inl hrefused
  | @mismatched ref c m' first hinput hlook hgranted hfirst hne =>
    cases hx.symm.trans hinput
    rw [grantAll_middle hbefore] at hgranted
    rw [firstCount?_of_ne (count?_of_look hlook) hne] at hfirst
    exact Or.inr ⟨⟨m', hgranted⟩,
      forecastOne_column_error_iff.mpr (Or.inr ⟨c, first, hlook, hfirst, hne, rfl⟩)⟩

theorem fault_of_stopped (h : Stopped store function deviceId site pre m₁ x e) :
    Fault store function deviceId site m (pre ++ x :: rest) pre.length e := by
  have hx : (pre ++ x :: rest)[pre.length]? = some x := by simp
  rcases h with hrefused | ⟨⟨m₂, hgranted⟩, hforecast⟩
  · exact .refused hx (by rw [List.take_left, hbefore]) hrefused
  · cases x with
    | unresolved description =>
      cases hforecast
      exact .unresolved hx
    | constant value =>
      rw [forecastOne] at hforecast
      cases hbytes : value.literalBytes? with
      | some bytes =>
        rw [hbytes] at hforecast
        cases hforecast
      | none =>
        rw [hbytes] at hforecast
        cases hforecast
        exact .unsupported hx (Scalar.literalBytes?_eq_none_iff.mp hbytes)
    | column ref =>
      rcases forecastOne_column_error_iff.mp hforecast with hlook
        | ⟨c, first, hlook, hfirst, hne, rfl⟩
      · exact .unserved hx hlook
      · rw [← grantAll_middle hbefore] at hgranted
        exact .mismatched hx hlook hgranted
          ((firstCount?_of_ne (count?_of_look hlook) hne).mpr hfirst) hne

end Middle

/-- An input behind others that were materialised is at fault exactly if it fails. -/
theorem fault_iff (h : Materialized store deviceId site m pre r s) :
    Fault store function deviceId site m (pre ++ x :: rest) pre.length e ↔
      ∃ s', (one store function deviceId pre.length r.rows x).run s = (.error e, s') := by
  obtain ⟨m₁, hbefore, halike⟩ := h.granted
  have hlevel : s.context.memoryLevel = site.deviceType.memoryLevel := by
    rw [Context.memoryLevel, Context.deviceType, h.site_eq]
  rw [one_error_iff, h.site_eq, h.rows, hlevel]
  constructor
  · intro hfault
    rcases stopped_of_fault hbefore hfault with hrefused | ⟨⟨m₂, hgranted⟩, hforecast⟩
    · exact Or.inl (halike.grantAll_error hrefused)
    · obtain ⟨m₃, hgranted₃, -⟩ := halike.grantAll_ok hgranted
      exact Or.inr ⟨⟨m₃, hgranted₃⟩, hforecast⟩
  · rintro (hrefused | ⟨⟨m₂, hgranted⟩, hforecast⟩)
    · exact fault_of_stopped hbefore (Or.inl (halike.symm.grantAll_error hrefused))
    · obtain ⟨m₃, hgranted₃, -⟩ := halike.symm.grantAll_ok hgranted
      exact fault_of_stopped hbefore (Or.inr ⟨⟨m₃, hgranted₃⟩, hforecast⟩)

end Steps

variable {inputs rest : List InputExpr} {r : Inputs} {k : ℕ}

theorem Fault.lt_length (h : Fault store function deviceId site m inputs k e) :
    k < inputs.length := by
  cases h with
  | unresolved hinput | unsupported hinput | unserved hinput | refused hinput | mismatched hinput =>
    exact (List.getElem?_eq_some_iff.mp hinput).1

theorem exists_middle (hk : k < inputs.length) :
    ∃ pre x rest, inputs = pre ++ x :: rest ∧ pre.length = k :=
  ⟨inputs.take k, inputs[k], inputs.drop (k + 1),
    by rw [← List.drop_eq_getElem_cons hk, List.take_append_drop], List.length_take_of_le hk.le⟩

theorem not_fault_of_run (inputs : List InputExpr)
    (hrun : (allFrom store function deviceId 0 none inputs).run ⟨{ site }, m⟩ = (.ok r, s))
    (hk : k < inputs.length) (rest : List InputExpr) (e : Failure) :
    ¬Fault store function deviceId site m (inputs ++ rest) k e := by
  intro hfault
  obtain ⟨pre, x, behind, rfl, rfl⟩ := exists_middle hk
  obtain ⟨r₁, s₁, r₂, hpre, hlast, -⟩ := allFrom_append_ok_iff.mp hrun
  obtain ⟨b, now, s₂, others, hone, -, -⟩ := allFrom_cons_ok_iff.mp hlast
  rw [List.append_assoc, List.cons_append, fault_iff (materialized_of_run hpre)] at hfault
  obtain ⟨s', hfails⟩ := hfault
  rw [Nat.zero_add, hfails] at hone
  cases hone

/-- Where materialising fails, the input is the first at fault, and the context holds those before
it. -/
theorem stops_at_fault {pre : List InputExpr} {x : InputExpr} {s₁ : Scope} (rest : List InputExpr)
    (hpre : (allFrom store function deviceId 0 none pre).run ⟨{ site }, m⟩ = (.ok r, s₁))
    (hone : (one store function deviceId pre.length r.rows x).run s₁ = (.error e, s)) :
    s = s₁.counting e.fetched ∧
      Fault store function deviceId site m (pre ++ x :: rest) pre.length e ∧
      (∀ j < pre.length, ∀ e', ¬Fault store function deviceId site m (pre ++ x :: rest) j e') ∧
      (allFrom store function deviceId 0 none (pre ++ x :: rest)).run ⟨{ site }, m⟩ =
        (.error e, s) := by
  have hheld : s = s₁.counting e.fetched := (meets_oneHeld s₁ x).run_error rfl hone
  refine ⟨hheld, (fault_iff (materialized_of_run hpre)).mpr ⟨s, hone⟩,
    fun j hj e' => not_fault_of_run pre hpre hj _ e', ?_⟩
  rw [allFrom_error_iff]
  refine ⟨pre, x, rest, r, s₁, rfl, hpre, ?_⟩
  rwa [Nat.zero_add]

/-- The first input at fault decides how materialising ends. If there is none, all inputs are
materialised. Otherwise the context holds the inputs before it, the failure is its own, and the
inputs behind it make no difference. -/
theorem materialize_stops_at_first_fault (plan : Plan) (store : ColumnStore) (deviceId : DeviceId)
    (site : Site) (m : Machine) :
    ((∀ k e, ¬Fault store plan.name deviceId site m plan.inputs k e) →
      ∃ r s, (plan.materialize store deviceId).run ⟨{ site }, m⟩ = (.ok r, s) ∧
        Materialized store deviceId site m plan.inputs r s) ∧
    ∀ k e, Fault store plan.name deviceId site m plan.inputs k e →
      (∀ j < k, ∀ e', ¬Fault store plan.name deviceId site m plan.inputs j e') →
      ∃ r s, Materialized store deviceId site m (plan.inputs.take k) r s ∧
        (plan.materialize store deviceId).run ⟨{ site }, m⟩ = (.error e, s.counting e.fetched) ∧
        (s.counting e.fetched).machine.fetches =
          m.fetches + (plan.inputs.take k).countP (·.isColumn) + e.fetched ∧
        ∀ rest,
          ({ plan with inputs := plan.inputs.take (k + 1) ++ rest }.materialize store deviceId).run
            ⟨{ site }, m⟩ = (.error e, s.counting e.fetched) := by
  rcases hrun : (plan.materialize store deviceId).run ⟨{ site }, m⟩ with ⟨e₀ | r, s⟩
  · obtain ⟨pre, x, rest, r, s₁, hinputs, hpre, hone⟩ := allFrom_error_iff.mp hrun
    rw [Nat.zero_add] at hone
    obtain ⟨rfl, hfault, hbefore, -⟩ := stops_at_fault rest hpre hone
    rw [hinputs]
    refine ⟨fun hnone => absurd hfault (hnone _ _), fun k e hk hfirst => ?_⟩
    have hsame : k = pre.length := by
      rcases Nat.lt_trichotomy k pre.length with hlt | heq | hgt
      · exact absurd hk (hbefore k hlt e)
      · exact heq
      · exact absurd hfault (hfirst _ hgt _)
    subst hsame
    obtain ⟨s', hfails⟩ := (fault_iff (materialized_of_run hpre)).mp hk
    rw [hone] at hfails
    cases hfails
    rw [List.take_left, take_middle]
    have hmaterialized := materialized_of_run hpre
    refine ⟨r, s₁, hmaterialized, rfl, congrArg (· + e₀.fetched) hmaterialized.fetches,
      fun others => ?_⟩
    rw [List.append_assoc]
    exact (stops_at_fault others hpre hone).2.2.2
  · have hmaterialized := materialized_of_run hrun
    refine ⟨fun _ => ⟨r, s, rfl, hmaterialized⟩, fun k e hk _ => ?_⟩
    have hnot := not_fault_of_run plan.inputs hrun hk.lt_length [] e
    rw [List.append_nil] at hnot
    exact absurd hk hnot

/-- On a device, a constant and a column of two rows are in front of a column of three rows. -/
theorem materialize_stops_at_first_fault_mismatch : ∃ (plan : Plan) (store : ColumnStore),
    plan.inputs = [.constant (.int .w32 5), .column ⟨0, 0, .int .w32⟩, .column ⟨0, 1, .int .w32⟩,
      .unresolved "x"] ∧
    store = ⟨[(0, .ofValues .w32 [1, 2]), (1, .ofValues .w32 [1, 2, 3])], some Sample.device⟩ ∧
    Fault store plan.name 0 (.device Sample.device) {} plan.inputs 2
      (.rowCountMismatch plan.name 2 2 3) ∧
    (∀ j < 2, ∀ e, ¬Fault store plan.name 0 (.device Sample.device) {} plan.inputs j e) ∧
    ∃ r s, Materialized store 0 (.device Sample.device) {} (plan.inputs.take 2) r s ∧
      (plan.materialize store 0).run ⟨{ site := .device Sample.device }, {}⟩ =
        (.error (.rowCountMismatch plan.name 2 2 3), s.counting 1) := by
  let plan : Plan := { Sample.plan with
    inputs := [.constant (.int .w32 5), .column ⟨0, 0, .int .w32⟩, .column ⟨0, 1, .int .w32⟩,
      .unresolved "x"] }
  let store : ColumnStore :=
    ⟨[(0, .ofValues .w32 [1, 2]), (1, .ofValues .w32 [1, 2, 3])], some Sample.device⟩
  have hfault : Fault store plan.name 0 (.device Sample.device) {} plan.inputs 2
      (.rowCountMismatch plan.name 2 2 3) :=
    .mismatched (c := .ofValues .w32 [1, 2, 3]) rfl rfl rfl rfl (by decide)
  have hfirst : ∀ j < 2, ∀ e, ¬Fault store plan.name 0 (.device Sample.device) {} plan.inputs j e :=
    fun j hj e => not_fault_of_run (plan.inputs.take 2) rfl hj (plan.inputs.drop 2) e
  obtain ⟨r, s, hmaterialized, hrun, -⟩ :=
    (materialize_stops_at_first_fault plan store 0 (.device Sample.device) {}).2 2 _ hfault hfirst
  exact ⟨plan, store, rfl, rfl, hfault, hfirst, r, s, hmaterialized, hrun⟩

end KernelDispatch.Inputs
