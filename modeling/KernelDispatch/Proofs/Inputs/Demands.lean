import KernelDispatch.Proofs.Context.Demands

/-!
# What materialising inputs demands

A column takes one allocation on a device and nothing on the host, a constant takes one cell. The
demands of a list of inputs are those of its members in order, up to the first that a check turns
down.
-/

namespace KernelDispatch.Inputs

section Lists

variable (store : ColumnStore) (function : String) (deviceId : DeviceId) (site : Site)

def demandsOne : InputExpr → List Demand
  | .column ref => store.demands ref deviceId site
  | .constant value => if value.literalBytes?.isSome then [site.demand slotBytes] else []
  | .unresolved _ => []

def demandsFrom : ℕ → Option ℕ → List InputExpr → List Demand
  | _, _, [] => []
  | index, rows, input :: rest =>
    demandsOne store deviceId site input ++
      demandsAfter
        (forecastOne store function site.deviceType.memoryLevel deviceId index rows input)
        fun one => demandsFrom (index + 1) one.2 rest

end Lists

variable {store : ColumnStore} {function : String} {deviceId : DeviceId} {index : ℕ}
  {rows : Option ℕ}

theorem column_demands (s₀ : Scope) (ref : ColumnRef) :
    s₀.Demands (column store function deviceId index rows ref)
      (store.demands ref deviceId s₀.context.site) := by
  apply Action.meets_read_bind
  apply Action.meets_bind fun _ s =>
    s₀.machine.Grants (store.demands ref deviceId s₀.context.site) s.machine
  · apply Action.meets_on
    rintro s rfl
    exact store.meets_fetch_demands ref deviceId s.machine s.context.site
  · intro c
    by_cases hagrees : agrees rows c.count = true
    · rw [if_pos hagrees]
      exact fun s hs => hs
    · rw [if_neg hagrees]
      exact fun s hs => Machine.Stops.checked hs rfl

theorem one_demands (s₀ : Scope) (input : InputExpr) :
    s₀.Demands (one store function deviceId index rows input)
      (demandsOne store deviceId s₀.context.site input) := by
  cases input with
  | column ref => exact (column_demands s₀ ref).map _
  | constant value => exact (Scope.literal_demands value).map _
  | unresolved description =>
    apply Action.meets_fail
    rintro s rfl
    exact .checked (.nil (.refl s.machine)) rfl

theorem demandsFrom_cons {input : InputExpr} {rest : List InputExpr} {site : Site} {bytes : Bytes}
    {rows' : Option ℕ}
    (h : forecastOne store function site.deviceType.memoryLevel deviceId index rows input =
      .ok (bytes, rows')) :
    demandsFrom store function deviceId site index rows (input :: rest) =
      demandsOne store deviceId site input ++
        demandsFrom store function deviceId site (index + 1) rows' rest := by
  rw [demandsFrom, h, demandsAfter_ok]

/-- All inputs make their demands in order, up to the first that is turned down. -/
theorem allFrom_demands (inputs : List InputExpr) (index : ℕ) (rows : Option ℕ) (s₀ : Scope) :
    s₀.Demands (allFrom store function deviceId index rows inputs)
      (demandsFrom store function deviceId s₀.context.site index rows inputs) := by
  induction inputs generalizing index rows s₀ with
  | nil =>
    apply Action.meets_pure
    rintro s rfl
    exact .nil (.refl s.machine)
  | cons input rest ih =>
    refine (one_demands s₀ input).bind (meets_one s₀ input) ?_ ?_
    · rintro e s ⟨-, hcause⟩ he
      rcases hcause with hrefusal | hone
      · exact nomatch hrefusal.symm.trans he
      · change forecastOne _ _ s₀.context.site.deviceType.memoryLevel _ _ _ _ = _ at hone
        rw [hone, demandsAfter_error]
    · rintro ⟨b, rows₁⟩ s₁ ⟨hgrows, bytes, hone, -⟩
      have hrest := ih (index + 1) rows₁ s₁
      change forecastOne _ _ s₀.context.site.deviceType.memoryLevel _ _ _ _ = _ at hone
      rw [hgrows.site] at hrest
      rw [hone, demandsAfter_ok]
      exact hrest.map _

theorem demandsFrom_eq {inputs : List InputExpr} {site : Site} {bytes : List Bytes}
    {rows' : Option ℕ}
    (h : forecastFrom store function site.deviceType.memoryLevel deviceId index rows inputs =
      .ok (bytes, rows')) :
    demandsFrom store function deviceId site index rows inputs =
      inputs.flatMap (demandsOne store deviceId site) := by
  induction inputs generalizing index rows bytes with
  | nil => rfl
  | cons input rest ih =>
    obtain ⟨⟨first, now⟩, hone, hrest⟩ := bind_eq_ok_iff.mp h
    obtain ⟨⟨others, last⟩, hothers, heq⟩ := bind_eq_ok_iff.mp hrest
    cases heq
    rw [demandsFrom_cons hone, ih hothers, List.flatMap_cons]

theorem length_of_forecastFrom {inputs : List InputExpr} {level : MemoryLevel} {bytes : List Bytes}
    {rows' : Option ℕ}
    (h : forecastFrom store function level deviceId index rows inputs = .ok (bytes, rows')) :
    bytes.length = inputs.length := by
  induction inputs generalizing index rows bytes with
  | nil =>
    cases h
    rfl
  | cons input rest ih =>
    obtain ⟨⟨first, now⟩, -, hrest⟩ := bind_eq_ok_iff.mp h
    obtain ⟨⟨others, last⟩, hothers, heq⟩ := bind_eq_ok_iff.mp hrest
    cases heq
    exact congrArg Nat.succ (ih hothers)

end KernelDispatch.Inputs
