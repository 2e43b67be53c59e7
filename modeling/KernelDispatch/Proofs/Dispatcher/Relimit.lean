import KernelDispatch.Proofs.Dispatcher.Follows
import KernelDispatch.Proofs.Room

/-!
# Devices under other limits

How many allocations a device may have is read by its allocator alone. Under other limits a
dispatcher makes the same checks, forecasts the same and makes the same demands.
-/

namespace KernelDispatch

variable (limits : ℕ → Option ℕ)

def Site.relimit : Site → Site
  | .host => .host
  | .device d => .device (d.relimit limits)

def ColumnStore.relimit (S : ColumnStore) : ColumnStore :=
  { S with device := S.device.map (Device.relimit limits) }

def Dispatcher.relimit (D : Dispatcher) : Dispatcher :=
  { D with device := D.device.map (Device.relimit limits) }

@[simp] theorem Site.deviceType_relimit (site : Site) :
    (site.relimit limits).deviceType = site.deviceType := by
  cases site <;> rfl

theorem Site.demand_relimit (site : Site) (n : ℕ) :
    (site.relimit limits).demand n = (site.demand n).relimit limits := by
  cases site <;> rfl

theorem demandsAfter_relimit {α : Type} (x : Except Failure α) (f : α → List Demand) :
    demandsAfter x (fun a => (f a).map (Demand.relimit limits)) =
      (demandsAfter x f).map (Demand.relimit limits) := by
  cases x <;> rfl

namespace ColumnStore

variable (S : ColumnStore) (ref : ColumnRef) (deviceId : DeviceId)

@[simp] theorem look_relimit (level : MemoryLevel) :
    (S.relimit limits).look ref level deviceId = S.look ref level deviceId := by
  unfold look relimit find?
  cases S.device <;> rfl

theorem demands_relimit (site : Site) :
    (S.relimit limits).demands ref deviceId (site.relimit limits) =
      (S.demands ref deviceId site).map (Demand.relimit limits) := by
  cases site with
  | host => rfl
  | device d =>
    simp only [demands, Site.relimit, look_relimit]
    cases S.look ref .device deviceId with
    | error e => rfl
    | ok column =>
      simp only [relimit]
      cases S.device <;> rfl

end ColumnStore

namespace Inputs

variable (store : ColumnStore) (function : String) (deviceId : DeviceId)

@[simp] theorem forecastOne_relimit (level : MemoryLevel) (index : ℕ) (rows : Option ℕ)
    (input : InputExpr) :
    forecastOne (store.relimit limits) function level deviceId index rows input =
      forecastOne store function level deviceId index rows input := by
  cases input with
  | column ref => simp only [forecastOne, ColumnStore.look_relimit]
  | constant value => rfl
  | unresolved description => rfl

@[simp] theorem forecastFrom_relimit (level : MemoryLevel) (inputs : List InputExpr) (index : ℕ)
    (rows : Option ℕ) :
    forecastFrom (store.relimit limits) function level deviceId index rows inputs =
      forecastFrom store function level deviceId index rows inputs := by
  induction inputs generalizing index rows with
  | nil => rfl
  | cons input rest ih => simp only [forecastFrom, forecastOne_relimit, ih]

theorem demandsOne_relimit (site : Site) (input : InputExpr) :
    demandsOne (store.relimit limits) deviceId (site.relimit limits) input =
      (demandsOne store deviceId site input).map (Demand.relimit limits) := by
  cases input with
  | column ref => exact store.demands_relimit limits ref deviceId site
  | constant value =>
    simp only [demandsOne]
    split
    · rw [Site.demand_relimit]
      rfl
    · rfl
  | unresolved description => rfl

theorem demandsFrom_relimit (site : Site) (inputs : List InputExpr) (index : ℕ) (rows : Option ℕ) :
    demandsFrom (store.relimit limits) function deviceId (site.relimit limits) index rows inputs =
      (demandsFrom store function deviceId site index rows inputs).map (Demand.relimit limits) := by
  induction inputs generalizing index rows with
  | nil => rfl
  | cons input rest ih =>
    simp only [demandsFrom, demandsOne_relimit, Site.deviceType_relimit, forecastOne_relimit, ih,
      demandsAfter_relimit, List.map_append]

end Inputs

namespace Dispatcher

variable (D : Dispatcher) (plan : Plan) (f : CompiledFunction) (columns : ColumnStore) (site : Site)

@[simp] theorem config_relimit : (D.relimit limits).config = D.config := rfl

theorem requestedCapacity_relimit (rows : ℕ) :
    (D.relimit limits).requestedCapacity plan (site.relimit limits) rows =
      D.requestedCapacity plan site rows := by
  cases site <;> rfl

theorem forecastCapacity_relimit (rows : ℕ) :
    (D.relimit limits).forecastCapacity plan (site.relimit limits) rows =
      D.forecastCapacity plan site rows := by
  cases site <;> rfl

theorem forecast_relimit :
    (D.relimit limits).forecast plan f (columns.relimit limits) (site.relimit limits) =
      D.forecast plan f columns site := by
  unfold forecast
  rw [Inputs.forecastFrom_relimit, Site.deviceType_relimit]
  cases site <;> rfl

theorem demandsRun_relimit (inputs rows : ℕ) :
    (D.relimit limits).demandsRun plan f inputs rows (site.relimit limits) =
      (D.demandsRun plan f inputs rows site).map (Demand.relimit limits) := by
  have hrequested := D.requestedCapacity_relimit limits plan site rows
  have hcapacity := D.forecastCapacity_relimit limits plan site rows
  cases site with
  | host =>
    simp only [demandsRun, Site.relimit] at hrequested ⊢
    rw [hrequested, ← demandsAfter_relimit]
    simp only [← demandsAfter_relimit]
    rfl
  | device d =>
    simp only [demandsRun, Site.relimit] at hrequested hcapacity ⊢
    rw [hrequested, hcapacity, ← demandsAfter_relimit]
    simp only [← demandsAfter_relimit, List.map_cons, List.map_append]
    rfl

theorem demands_relimit :
    (D.relimit limits).demands plan f (columns.relimit limits) (site.relimit limits) =
      (D.demands plan f columns site).map (Demand.relimit limits) := by
  unfold demands
  rw [config_relimit, Inputs.demandsFrom_relimit, Inputs.forecastFrom_relimit,
    Site.deviceType_relimit, List.map_append, ← demandsAfter_relimit]
  congr 2
  funext inputs
  cases inputs.2 with
  | none => rfl
  | some rows => exact D.demandsRun_relimit limits plan f site plan.inputs.length rows

theorem openContext_relimit (target : DeviceType) :
    (D.relimit limits).openContext plan target =
      (D.openContext plan target).map fun c => { c with site := c.site.relimit limits } := by
  cases target with
  | cpu => rfl
  | gpu =>
    simp only [openContext, relimit]
    cases D.device <;> rfl

theorem prepare_relimit (table : Table) (code : Option CompiledFunction) (target : DeviceType) :
    (D.relimit limits).prepare plan table code target =
      (D.prepare plan table code target).map fun p =>
        (p.1, { p.2 with site := p.2.site.relimit limits }) := by
  unfold prepare
  rw [config_relimit, openContext_relimit]
  cases D.config.validate with
  | error e => rfl
  | ok _ =>
    cases code with
    | none => rfl
    | some f =>
      change (if target = .gpu ∧ D.deviceSupport = false then _ else _) =
        Except.map _ (if target = .gpu ∧ D.deviceSupport = false then _ else _)
      split
      · rfl
      · cases table.singleFragment with
        | error e => rfl
        | ok _ => cases D.openContext plan target <;> rfl

end Dispatcher

end KernelDispatch
