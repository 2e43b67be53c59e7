import KernelDispatch.Proofs.Capacity.Least
import KernelDispatch.Proofs.Dispatcher.Follows

/-!
# When a kernel runs

The checks in front of a kernel are collected, each as the condition under which it passes. An
invocation reaches its kernel exactly if all conditions hold and its demands, which are then known
in full, are granted.
-/

namespace KernelDispatch

def Scalar.HasCell (v : Scalar) : Prop :=
  (∃ w n, v = .int w n) ∨ (∃ n, v = .float32 n) ∨ ∃ n, v = .float64 n

theorem Scalar.hasCell_iff {v : Scalar} : v.HasCell ↔ ∃ bytes, v.literalBytes? = some bytes := by
  cases v <;> simp [HasCell, literalBytes?]

theorem Scalar.literalBytes?_eq_none_iff {v : Scalar} : v.literalBytes? = none ↔ ¬v.HasCell := by
  rw [hasCell_iff, Option.eq_none_iff_forall_ne_some, not_exists]

theorem ColumnStore.look_eq_ok_iff {S : ColumnStore} {ref : ColumnRef} {level : MemoryLevel}
    {deviceId : DeviceId} {column : StoredColumn} :
    S.look ref level deviceId = .ok column ↔ S.find? ref.index = some column ∧
      (level = .device → ∃ d, S.device = some d ∧ d.id = deviceId) := by
  unfold look
  cases S.find? ref.index with
  | none => simp
  | some c =>
    cases level with
    | host => simp
    | device =>
      cases S.device with
      | none => simp
      | some d =>
        by_cases hid : d.id = deviceId
        · simp [hid]
        · simp [hid]

/-- A constant that has a cell, or a column that can be served at a level. -/
def InputExpr.Available (S : ColumnStore) (level : MemoryLevel) (deviceId : DeviceId) :
    InputExpr → Prop
  | .column ref => (S.find? ref.index).isSome = true ∧
      (level = .device → ∃ d, S.device = some d ∧ d.id = deviceId)
  | .constant value => value.HasCell
  | .unresolved _ => False

def InputExpr.count? (S : ColumnStore) : InputExpr → Option ℕ
  | .column ref => (S.find? ref.index).map (·.count)
  | .constant _ => none
  | .unresolved _ => none

namespace Inputs

variable {store : ColumnStore} {function : String} {level : MemoryLevel} {deviceId : DeviceId}
  {index : ℕ} {rows now : Option ℕ}

theorem agrees_iff {n : ℕ} : agrees rows n = true ↔ rows = none ∨ rows = some n := by
  cases rows <;> simp [agrees]

theorem forecastOne_passes_iff {input : InputExpr} :
    (∃ bytes, forecastOne store function level deviceId index rows input = .ok (bytes, now)) ↔
      input.Available store level deviceId ∧
        match input.count? store with
        | none => now = rows
        | some n => (rows = none ∨ rows = some n) ∧ now = some n := by
  cases input with
  | column ref =>
    constructor
    · rintro ⟨bytes, h⟩
      obtain ⟨c, hlook, h⟩ := bind_eq_ok_iff.mp h
      obtain ⟨hfind, hlevel⟩ := ColumnStore.look_eq_ok_iff.mp hlook
      split_ifs at h with hagrees
      cases h
      simp only [InputExpr.Available, InputExpr.count?, hfind, Option.map_some, Option.isSome_some]
      exact ⟨⟨trivial, hlevel⟩, agrees_iff.mp hagrees, trivial⟩
    · rintro ⟨⟨hfound, hlevel⟩, hcount⟩
      obtain ⟨c, hfind⟩ := Option.isSome_iff_exists.mp hfound
      simp only [InputExpr.count?, hfind, Option.map_some] at hcount
      obtain ⟨hrows, rfl⟩ := hcount
      have hlook := ColumnStore.look_eq_ok_iff.mpr ⟨hfind, hlevel⟩
      exact ⟨c.bytes, bind_eq_ok_iff.mpr ⟨c, hlook, if_pos (agrees_iff.mpr hrows)⟩⟩
  | constant value =>
    simp only [InputExpr.Available, InputExpr.count?, Scalar.hasCell_iff]
    cases hbytes : value.literalBytes? with
    | none => simp [forecastOne, hbytes]
    | some bytes => simp [forecastOne, hbytes, eq_comm]
  | unresolved description => simp [forecastOne, InputExpr.Available]

theorem forecastFrom_passes_iff {inputs : List InputExpr} {n : ℕ} :
    (∃ bytes, forecastFrom store function level deviceId index rows inputs = .ok (bytes, some n)) ↔
      (∀ input ∈ inputs, input.Available store level deviceId) ∧
      (∀ input ∈ inputs, ∀ k, input.count? store = some k → k = n) ∧
      (rows = some n ∨ rows = none ∧ ∃ input ∈ inputs, input.count? store = some n) := by
  induction inputs generalizing index rows with
  | nil => simp [forecastFrom]
  | cons input rest ih =>
    have hstep : (∃ bytes, forecastFrom store function level deviceId index rows (input :: rest) =
          .ok (bytes, some n)) ↔
        ∃ now, (∃ bytes, forecastOne store function level deviceId index rows input =
            .ok (bytes, now)) ∧
          ∃ bytes, forecastFrom store function level deviceId (index + 1) now rest =
            .ok (bytes, some n) := by
      constructor
      · rintro ⟨bytes, h⟩
        obtain ⟨⟨first, now⟩, hone, h⟩ := bind_eq_ok_iff.mp h
        obtain ⟨⟨others, last⟩, hrest, heq⟩ := bind_eq_ok_iff.mp h
        cases heq
        exact ⟨now, ⟨first, hone⟩, others, hrest⟩
      · rintro ⟨now, ⟨first, hone⟩, others, hrest⟩
        exact ⟨first :: others, bind_eq_ok_iff.mpr ⟨_, hone, bind_eq_ok_iff.mpr ⟨_, hrest, rfl⟩⟩⟩
    rw [hstep]
    simp only [ih, forecastOne_passes_iff, List.forall_mem_cons, List.exists_mem_cons_iff]
    cases hcount : input.count? store with
    | none =>
      simp
      tauto
    | some k =>
      constructor
      · rintro ⟨now, ⟨havailable, hrows, rfl⟩, hall, hcounts, hlast⟩
        obtain rfl : k = n := by
          rcases hlast with hsame | ⟨hnone, -⟩
          · exact Option.some.inj hsame
          · cases hnone
        refine ⟨⟨havailable, hall⟩, ⟨fun j hj => (Option.some.inj hj).symm, hcounts⟩, ?_⟩
        exact hrows.symm.imp_right fun hnone => ⟨hnone, Or.inl rfl⟩
      · rintro ⟨⟨havailable, hall⟩, ⟨hfirst, hcounts⟩, hlast⟩
        obtain rfl : k = n := hfirst k rfl
        refine ⟨some k, ⟨havailable, ?_, rfl⟩, hall, hcounts, Or.inl rfl⟩
        exact hlast.symm.imp_left And.left

/-- All inputs pass their checks, and the columns among them have `n` rows. -/
theorem forecastFrom_all_passes_iff {inputs : List InputExpr} {n : ℕ} :
    (∃ bytes, forecastFrom store function level deviceId index none inputs = .ok (bytes, some n)) ↔
      (∀ input ∈ inputs, input.Available store level deviceId) ∧
      (∀ input ∈ inputs, ∀ k, input.count? store = some k → k = n) ∧
      ∃ input ∈ inputs, input.count? store = some n := by
  rw [forecastFrom_passes_iff]
  simp only [reduceCtorEq, true_and, false_or]

end Inputs

/-- The least capacity for `rows` rows under the multiplier of a plan, which is positive and
finite. -/
def Plan.Scales (plan : Plan) (rows capacity : ℕ) : Prop :=
  ∃ bits mantissa exponent, plan.sizing = some (.rowMultiplier bits) ∧
    FloatFormat.double.decode bits.toNat = .finite false mantissa exponent ∧ 0 < mantissa ∧
    IsLeast {c : ℕ | rowTarget rows mantissa exponent ≤ c} capacity

theorem Plan.rowCapacity_eq_ok_iff {plan : Plan} {rows capacity : ℕ} (hrows : rows < sizeBound) :
    plan.rowCapacity rows = .ok capacity ↔ plan.Scales rows capacity ∧ capacity < sizeBound := by
  constructor
  · intro h
    cases hsizing : plan.sizing with
    | none =>
      rw [rowCapacity, hsizing] at h
      cases h
    | some sizing =>
      obtain ⟨bits⟩ := sizing
      have hdecode : ∃ mantissa exponent,
          FloatFormat.double.decode bits.toNat = .finite false mantissa exponent ∧
          0 < mantissa := by
        rw [rowCapacity, hsizing] at h
        simp only at h
        split at h
        · rename_i mantissa exponent hvalue
          exact ⟨mantissa + 1, exponent, hvalue, Nat.succ_pos mantissa⟩
        · cases h
      obtain ⟨mantissa, exponent, hvalue, hpositive⟩ := hdecode
      rw [rowCapacity_eq hsizing hvalue hpositive hrows, asSize?] at h
      by_cases hsize : exactRows rows mantissa exponent < sizeBound
      · rw [if_pos hsize] at h
        cases h
        exact ⟨⟨bits, mantissa, exponent, hsizing, hvalue, hpositive, exactRows_isLeast⟩, hsize⟩
      · rw [if_neg hsize] at h
        cases h
  · rintro ⟨⟨bits, mantissa, exponent, hsizing, hvalue, hpositive, hleast⟩, hsize⟩
    obtain rfl : exactRows rows mantissa exponent = capacity := exactRows_isLeast.unique hleast
    rw [rowCapacity_eq hsizing hvalue hpositive hrows, asSize?_of_lt hsize]

theorem kernelRows_eq_ok_iff {rows : ℕ} :
    (∃ told, kernelRows rows = .ok told) ↔ rows < Word.signedBound := by
  unfold kernelRows
  split_ifs with h
  · simp [h]
  · simp [h]

namespace OutputRequest

variable {q : OutputRequest} {plan : Plan} {site : Site}

theorem checkLayout_ofPlan (h : q.layout = .ofPlan plan) :
    q.checkLayout plan.outputs.length = .ok () := by
  simp [checkLayout, h, OutputLayout.ofPlan, slotBytes]

theorem checkContext_eq_ok_iff (htype : q.deviceType = site.deviceType) :
    q.checkContext { site } = .ok () ↔ ∀ d, site = .device d → d.id = q.deviceId := by
  have hcontext : q.deviceType = Context.deviceType { site } := htype
  rw [checkContext, if_pos hcontext, htype]
  cases site with
  | host => simp [Site.deviceType]
  | device d =>
    change (if d.id = q.deviceId then Except.ok () else _) = _ ↔ _
    by_cases hid : d.id = q.deviceId
    · simp [hid]
    · simp [hid]

theorem numBytes?_isSome_iff :
    (∃ n, q.numBytes? = some n) ↔ q.layout.slots.length * q.rows * 8 < sizeBound := by
  constructor
  · rintro ⟨n, h⟩
    obtain ⟨rfl, hsize⟩ := numBytes?_eq_some h
    exact hsize
  · intro hsize
    have hwords : q.layout.slots.length * q.rows < sizeBound := by omega
    have hnum : q.numBytes? = asSize? (q.layout.slots.length * q.rows * 8) := by
      rw [numBytes?, asSize?_of_lt hwords]
      rfl
    exact ⟨_, hnum.trans (asSize?_of_lt hsize)⟩

/-- A request for columns of words passes if it is for the device of the context and its storage is
of a size. -/
theorem check_passes_iff (hlayout : q.layout = .ofPlan plan)
    (htype : q.deviceType = site.deviceType) (hgroups : q.checkGroups = .ok ()) :
    (∃ n, q.check plan { site } = .ok n) ↔
      plan.outputs.length * q.rows * 8 < sizeBound ∧ ∀ d, site = .device d → d.id = q.deviceId := by
  have hslots : q.layout.slots.length = plan.outputs.length := by
    rw [hlayout, OutputLayout.ofPlan, List.length_map]
  rw [← hslots, ← numBytes?_isSome_iff, ← checkContext_eq_ok_iff htype]
  constructor
  · rintro ⟨n, h⟩
    obtain ⟨_, -, h⟩ := bind_eq_ok_iff.mp h
    obtain ⟨_, -, h⟩ := bind_eq_ok_iff.mp h
    obtain ⟨_, hcontext, h⟩ := bind_eq_ok_iff.mp h
    refine ⟨?_, hcontext⟩
    split at h
    · rename_i n' hn
      exact ⟨n', hn⟩
    · cases h
  · rintro ⟨⟨n, hn⟩, hcontext⟩
    refine ⟨n, bind_eq_ok_iff.mpr ⟨_, checkLayout_ofPlan hlayout, bind_eq_ok_iff.mpr ⟨_, hgroups,
      bind_eq_ok_iff.mpr ⟨_, hcontext, ?_⟩⟩⟩⟩
    rw [hn]

end OutputRequest

namespace Dispatcher

variable {D : Dispatcher} {plan : Plan} {f : CompiledFunction} {site : Site} {rows capacity : ℕ}

theorem forecastCapacity_eq_bind (D : Dispatcher) (plan : Plan) (site : Site) (rows : ℕ) :
    D.forecastCapacity plan site rows = do
      let capacity ← D.requestedCapacity plan site rows
      plan.checkStorage capacity
      return capacity := by
  rw [forecastCapacity, requestedCapacity]
  cases plan.rowCapacity rows <;> rfl

theorem requestedCapacity_eq_ok_iff (hinitializer : D.initializer = .columns)
    (hrows : rows < sizeBound) :
    D.requestedCapacity plan site rows = .ok capacity ↔
      (plan.Scales rows capacity ∧ capacity < sizeBound) ∧
        plan.outputs.length * capacity * 8 < sizeBound ∧
        ∀ d, site = .device d → d.id = D.config.deviceId := by
  rw [← Plan.rowCapacity_eq_ok_iff hrows, requestedCapacity, hinitializer]
  have hcheck :
      (∃ n, (D.outputRequest plan site.deviceType capacity []).check plan { site } = .ok n) ↔
        plan.outputs.length * capacity * 8 < sizeBound ∧
          ∀ d, site = .device d → d.id = D.config.deviceId :=
    OutputRequest.check_passes_iff rfl rfl rfl
  constructor
  · intro h
    obtain ⟨c, hc, h⟩ := bind_eq_ok_iff.mp h
    obtain ⟨n, hn, h⟩ := bind_eq_ok_iff.mp h
    cases h
    exact ⟨hc, hcheck.mp ⟨n, hn⟩⟩
  · rintro ⟨hc, hfits⟩
    obtain ⟨n, hn⟩ := hcheck.mpr hfits
    exact bind_eq_ok_iff.mpr ⟨_, hc, bind_eq_ok_iff.mpr ⟨n, hn, rfl⟩⟩

/-- Output can be had if it can be asked for and is no more than a single allocation can have. -/
theorem forecastCapacity_eq_ok_iff :
    D.forecastCapacity plan site rows = .ok capacity ↔
      D.requestedCapacity plan site rows = .ok capacity ∧
        8 * (plan.outputs.length * capacity) < Word.signedBound := by
  rw [forecastCapacity_eq_bind]
  constructor
  · intro h
    obtain ⟨c, hc, h⟩ := bind_eq_ok_iff.mp h
    obtain ⟨⟨⟩, hstorage, h⟩ := bind_eq_ok_iff.mp h
    cases h
    exact ⟨hc, OutputRequest.checkStorage_eq_ok_iff.mp hstorage⟩
  · rintro ⟨hc, hfits⟩
    exact bind_eq_ok_iff.mpr ⟨capacity, hc, bind_eq_ok_iff.mpr
      ⟨(), OutputRequest.checkStorage_eq_ok_iff.mpr hfits, rfl⟩⟩

theorem forecastCapacity_of_large (hrequested : D.requestedCapacity plan site rows = .ok capacity)
    (hlarge : Word.signedBound ≤ 8 * (plan.outputs.length * capacity)) :
    D.forecastCapacity plan site rows = .error .capacityOverflow := by
  rw [forecastCapacity_eq_bind, hrequested]
  have hstorage := OutputRequest.checkStorage_eq_error_iff.mpr ⟨hlarge, rfl⟩
  exact bind_eq_error_iff.mpr (Or.inr ⟨capacity, rfl, bind_eq_error_iff.mpr (Or.inl hstorage)⟩)

/-- What stops a run with materialised inputs: no code, a row count that cannot be told, no output
of this capacity, or a refused launch. -/
theorem forecastRun_eq_ok_iff {bytes : List Bytes} {given : Forecast} :
    D.forecastRun plan f bytes rows site = .ok given ↔
      given = ⟨bytes, rows, given.capacity⟩ ∧ (f.bodyFor site.deviceType).isSome = true ∧
        rows < Word.signedBound ∧ D.forecastCapacity plan site rows = .ok given.capacity ∧
        ∀ d, site = .device d → ∀ kernel, f.device = some kernel →
          D.forecastLaunch plan kernel = .ok () := by
  cases site with
  | host =>
    constructor
    · intro h
      obtain ⟨body, hbody, h⟩ := bind_eq_ok_iff.mp h
      obtain ⟨capacity, hcapacity, h⟩ := bind_eq_ok_iff.mp h
      obtain ⟨told, htold, h⟩ := bind_eq_ok_iff.mp h
      cases h
      rw [CompiledFunction.hostBody_eq_ok_iff] at hbody
      exact ⟨rfl, Option.isSome_of_eq_some hbody, kernelRows_eq_ok_iff.mp ⟨told, htold⟩, hcapacity,
        nofun⟩
    · rintro ⟨hgiven, hcode, hrows, hcapacity, -⟩
      obtain ⟨body, hbody⟩ := CompiledFunction.exists_hostBody hcode
      obtain ⟨told, htold⟩ := kernelRows_eq_ok_iff.mpr hrows
      exact bind_eq_ok_iff.mpr ⟨body, hbody, bind_eq_ok_iff.mpr ⟨_, hcapacity,
        bind_eq_ok_iff.mpr ⟨_, htold, congrArg Except.ok hgiven.symm⟩⟩⟩
  | device d =>
    constructor
    · intro h
      obtain ⟨kernel, hkernel, h⟩ := bind_eq_ok_iff.mp h
      obtain ⟨told, htold, h⟩ := bind_eq_ok_iff.mp h
      obtain ⟨capacity, hcapacity, h⟩ := bind_eq_ok_iff.mp h
      obtain ⟨_, hlaunch, h⟩ := bind_eq_ok_iff.mp h
      cases h
      rw [CompiledFunction.deviceKernel_eq_ok_iff] at hkernel
      refine ⟨rfl, ?_, kernelRows_eq_ok_iff.mp ⟨told, htold⟩, hcapacity, ?_⟩
      · simp [Site.deviceType, CompiledFunction.bodyFor, hkernel]
      · rintro _ - kernel' hkernel'
        rw [hkernel] at hkernel'
        cases hkernel'
        exact hlaunch
    · rintro ⟨hgiven, hcode, hrows, hcapacity, hlaunch⟩
      obtain ⟨kernel, hkernel⟩ := CompiledFunction.exists_deviceKernel hcode
      have hlaunched := hlaunch d rfl kernel (CompiledFunction.deviceKernel_eq_ok_iff.mp hkernel)
      obtain ⟨told, htold⟩ := kernelRows_eq_ok_iff.mpr hrows
      exact bind_eq_ok_iff.mpr ⟨kernel, hkernel, bind_eq_ok_iff.mpr ⟨_, htold,
        bind_eq_ok_iff.mpr ⟨_, hcapacity, bind_eq_ok_iff.mpr ⟨_, hlaunched,
          congrArg Except.ok hgiven.symm⟩⟩⟩⟩

/-- What is forecast of an invocation is forecast of its inputs, whose columns have a row count, and
of its run. -/
theorem forecast_eq_ok_iff {columns : ColumnStore} {given : Forecast} :
    D.forecast plan f columns site = .ok given ↔ ∃ bytes rows,
      Inputs.forecastFrom columns plan.name site.deviceType.memoryLevel D.config.deviceId 0 none
        plan.inputs = .ok (bytes, some rows) ∧
      D.forecastRun plan f bytes rows site = .ok given := by
  constructor
  · intro h
    obtain ⟨⟨bytes, rows⟩, hinputs, hrun⟩ := bind_eq_ok_iff.mp h
    cases rows with
    | none => cases hrun
    | some rows => exact ⟨bytes, rows, hinputs, hrun⟩
  · rintro ⟨bytes, rows, hinputs, hrun⟩
    exact bind_eq_ok_iff.mpr ⟨_, hinputs, hrun⟩

/-- The site is on the host, or on the device of the dispatcher in a build that can use it. -/
def Opens (D : Dispatcher) (site : Site) : Prop :=
  ∀ d, site = .device d → D.deviceSupport = true ∧ D.device = some d

theorem openContext_eq_ok_iff {target : DeviceType} :
    D.openContext plan target = .ok { site } ↔
      site.deviceType = target ∧ ∀ d, site = .device d → D.device = some d := by
  unfold openContext
  cases target with
  | cpu =>
    cases site with
    | host => simp [Site.deviceType]
    | device d => simp [Site.deviceType]
  | gpu =>
    cases D.device with
    | none => cases site <;> simp [Site.deviceType]
    | some d => cases site <;> simp [Site.deviceType]

theorem singleFragment_passes_iff {table : Table} :
    (∃ fragment, table.singleFragment = .ok fragment) ↔ table.fragments.length = 1 := by
  unfold Table.singleFragment
  rcases table.fragments with _ | ⟨first, _ | ⟨second, rest⟩⟩ <;> simp

theorem prepare_eq_ok_iff {table : Table} {code : Option CompiledFunction} {target : DeviceType} :
    D.prepare plan table code target = .ok (f, { site }) ↔
      D.config.validate = .ok () ∧ code = some f ∧ table.fragments.length = 1 ∧
        site.deviceType = target ∧ D.Opens site := by
  constructor
  · intro h
    obtain ⟨_, hvalid, h⟩ := bind_eq_ok_iff.mp h
    cases code with
    | none => cases h
    | some f' =>
      simp only at h
      split at h
      · cases h
      · rename_i hsupport
        obtain ⟨fragment, hfragment, h⟩ := bind_eq_ok_iff.mp h
        obtain ⟨context, hopen, h⟩ := bind_eq_ok_iff.mp h
        cases h
        obtain ⟨htarget, hdevice⟩ := openContext_eq_ok_iff.mp hopen
        refine ⟨hvalid, rfl, singleFragment_passes_iff.mp ⟨fragment, hfragment⟩, htarget, ?_⟩
        rintro d rfl
        refine ⟨?_, hdevice d rfl⟩
        cases hnone : D.deviceSupport with
        | true => rfl
        | false => exact absurd ⟨htarget.symm, hnone⟩ hsupport
  · rintro ⟨hvalid, rfl, hfragments, htarget, hopens⟩
    obtain ⟨fragment, hfragment⟩ := singleFragment_passes_iff.mpr hfragments
    have hopen : D.openContext plan target = .ok { site } :=
      openContext_eq_ok_iff.mpr ⟨htarget, fun d hd => (hopens d hd).2⟩
    have hsupport : ¬(target = .gpu ∧ D.deviceSupport = false) := by
      rintro ⟨rfl, hnone⟩
      cases site with
      | host => cases htarget
      | device d =>
        rw [(hopens d rfl).1] at hnone
        cases hnone
    refine bind_eq_ok_iff.mpr ⟨_, hvalid, ?_⟩
    simp only [if_neg hsupport]
    exact bind_eq_ok_iff.mpr ⟨fragment, hfragment, bind_eq_ok_iff.mpr ⟨_, hopen, rfl⟩⟩

end Dispatcher

end KernelDispatch
