import KernelDispatch.Proofs.Dispatcher.Execute

/-!
# Reconciliation of the row count

The row count that a kernel reports is a signed word. How it goes with the capacity decides whether
the execution has a result, of how many rows, or which kind of failure; on the host the status
decides first. The rows of a result read back what was last stored in them.
-/

namespace KernelDispatch

theorem Word.toNat_of_nonneg {c : Word} (h : 0 ≤ c.toInt) : (c.toNat : ℤ) = c.toInt := by
  rw [BitVec.toInt_eq_toNat_cond] at h ⊢
  have hlt := c.isLt
  split_ifs at h ⊢ with hhalf
  · rfl
  · omega

theorem withinCapacity_of_le {capacity : ℕ} {c : Word} (hc : 0 ≤ c.toInt)
    (hle : c.toInt ≤ capacity) : withinCapacity capacity c.toNat = .ok c.toNat := by
  rw [← Word.toNat_of_nonneg hc, Nat.cast_le] at hle
  exact if_pos hle

theorem withinCapacity_of_lt {capacity : ℕ} {c : Word} (hlt : (capacity : ℤ) < c.toInt) :
    withinCapacity capacity c.toNat = .error (.tooManyRows c.toNat capacity) := by
  rw [← Word.toNat_of_nonneg (c := c) (by omega), Nat.cast_lt] at hlt
  exact if_neg (by omega)

theorem kind_tooManyRows (rows capacity : ℕ) :
    (Failure.tooManyRows rows capacity).kind = .contractViolation := by
  simp [Failure.kind, Failure.report, Report.contractViolation]

theorem kind_rowCountUnset (function : String) (reported : Word) :
    (Failure.rowCountUnset function reported).kind = .contractViolation := by
  simp [Failure.kind, Failure.report, Report.contractViolation]

theorem kind_kernelStatus (function : String) (status : BitVec 32) :
    (Failure.kernelStatus function status).kind = .execution := by
  simp [Failure.kind, Failure.report]

theorem field_kernelStatus (function : String) (status : BitVec 32) :
    (Failure.kernelStatus function status).report.field? "code" = some (toString status.toInt) := by
  rfl

theorem Word.bytes_ofBytes {bs : Bytes} (h : bs.length = slotBytes) :
    (Word.ofBytes bs).bytes = bs := by
  have hlt := ofLittleEndian_lt bs
  rw [h] at hlt
  have hvalue : (Word.ofBytes bs).toNat = ofLittleEndian bs := by
    rw [Word.ofBytes, bitsAt, BitVec.toNat_ofNat]
    exact Nat.mod_eq_of_lt hlt
  have hround := littleEndian_ofLittleEndian bs
  rw [h] at hround
  rw [Word.bytes, bytesOf, hvalue]
  exact hround

/-- The code with a device kernel that writes something else to the error cell. -/
def CompiledFunction.withErrorCode (f : CompiledFunction)
    (errorCode : KernelView → Option (BitVec 32)) : CompiledFunction where
  host := f.host
  device := f.device.map fun kernel =>
    { kernel with body := fun view => { kernel.body view with errorCode := errorCode view } }

theorem CompiledFunction.bodyFor_withErrorCode (f : CompiledFunction)
    (errorCode : KernelView → Option (BitVec 32)) :
    (f.withErrorCode errorCode).bodyFor .gpu =
      (f.bodyFor .gpu).map fun body view => { body view with errorCode := errorCode view } := by
  obtain ⟨host, kernel⟩ := f
  cases kernel <;> rfl

theorem Dispatcher.forecast_withErrorCode (D : Dispatcher) (plan : Plan) (f : CompiledFunction)
    (errorCode : KernelView → Option (BitVec 32)) (columns : ColumnStore) (site : Site) :
    D.forecast plan (f.withErrorCode errorCode) columns site = D.forecast plan f columns site := by
  have hrun (inputs : List Bytes) (rows : ℕ) :
      D.forecastRun plan (f.withErrorCode errorCode) inputs rows site =
        D.forecastRun plan f inputs rows site := by
    obtain ⟨host, kernel⟩ := f
    cases site with
    | host => rfl
    | device d => cases kernel <;> rfl
  unfold forecast
  simp only [hrun]

theorem ResultSet.Shows.bytes {plan : Plan} {capacity rows column row : ℕ} {stores : List Store}
    {r : ResultSet} (h : r.Shows plan capacity rows stores) (hcolumn : column < plan.outputs.length)
    (hrow : row < rows) :
    ∃ words, r.slots column = .ok words ∧ words.length = rows ∧
      (words[row]?).map Word.bytes =
        some ((List.range slotBytes).map (storedByte stores column row)) := by
  refine ⟨_, h.slots column hcolumn, by simp, ?_⟩
  rw [List.getElem?_map, List.getElem?_range hrow, Option.map_some, Option.map_some, storedWord,
    Word.bytes_ofBytes (by simp)]

namespace Dispatcher

variable {D : Dispatcher} {plan : Plan} {table : Table} {code : Option CompiledFunction}
  {columns : ColumnStore} {target : DeviceType} {m : Machine} {capacity : ℕ} {before : Word}
  {effect : KernelEffect} {d : Device} {site : Site} {count : Word}

theorem settle_host_of_status (h : effect.status ≠ 0) :
    D.settle plan capacity before effect .host = .error (.kernelStatus plan.name effect.status) :=
  if_neg h

theorem settle_host (h : effect.status = 0) :
    D.settle plan capacity before effect .host =
      if (effect.count.getD before).toInt < 0 then
        .error (.rowCountUnset plan.name (effect.count.getD before))
      else withinCapacity capacity (effect.count.getD before).toNat := if_pos h

/-- On a device the status and the error cell are not looked at. -/
theorem settle_device (h : d.failsSync = false) :
    D.settle plan capacity before effect (.device d) =
      if (effect.count.getD before).toInt < 0 then
        match D.config.unsetRowCount with
        | .fallbackToCapacity => .ok capacity
        | .strict => .error (.rowCountUnset plan.name (effect.count.getD before))
      else withinCapacity capacity (effect.count.getD before).toNat := by
  have hsync : D.synchronize d = .ok () := by
    rw [synchronize, Device.synchronize, h]
    rfl
  rw [settle, hsync]
  change (D.reportedRows plan capacity (effect.count.getD before) >>= withinCapacity capacity) = _
  unfold reportedRows
  by_cases hnegative : (effect.count.getD before).toInt < 0
  · rw [if_pos hnegative, if_pos hnegative]
    cases D.config.unsetRowCount with
    | fallbackToCapacity => exact if_pos le_rfl
    | strict => rfl
  · rw [if_neg hnegative, if_neg hnegative]
    rfl

/-- Nothing but the row count decides how a run at this site is settled. -/
def CountDecides (effect : KernelEffect) : Site → Prop
  | .host => effect.status = 0
  | .device d => d.failsSync = false

theorem settle_of_nonneg (h : CountDecides effect site) (hcount : effect.count.getD before = count)
    (hnonneg : 0 ≤ count.toInt) :
    D.settle plan capacity before effect site = withinCapacity capacity count.toNat := by
  subst hcount
  cases site with
  | host => rw [settle_host h, if_neg hnonneg.not_gt]
  | device d => rw [settle_device h, if_neg hnonneg.not_gt]

theorem settle_of_fits (h : CountDecides effect site) (hcount : effect.count.getD before = count)
    (hnonneg : 0 ≤ count.toInt) (hle : count.toInt ≤ capacity) :
    D.settle plan capacity before effect site = .ok count.toNat := by
  rw [settle_of_nonneg h hcount hnonneg, withinCapacity_of_le hnonneg hle]

theorem settle_of_exceeds (h : CountDecides effect site) (hcount : effect.count.getD before = count)
    (hlt : (capacity : ℤ) < count.toInt) :
    D.settle plan capacity before effect site = .error (.tooManyRows count.toNat capacity) := by
  rw [settle_of_nonneg h hcount (by omega), withinCapacity_of_lt hlt]

def Outcome.FailsAs (outcome : Outcome) (kind : ErrorKind) : Prop :=
  ∃ e, outcome.result = .error e ∧ e.kind = kind

def Outcome.HasRows (outcome : Outcome) (rows : ℤ) : Prop :=
  ∃ r, outcome.result = .ok r ∧ (r.entries : ℤ) = rows

section Settled

variable {f : CompiledFunction} {expected : Except Failure Forecast} {outcome : Outcome}
  {given : Forecast}

theorem Settles.failsAs {e : Failure} {kind : ErrorKind}
    (h : D.Settles plan f site expected outcome given effect)
    (hsettle : D.settle plan given.capacity (D.freshCount site) effect site = .error e)
    (hkind : e.kind = kind) : outcome.FailsAs kind :=
  ⟨e, h.fails hsettle, hkind⟩

theorem Settles.hasRows {rows : ℕ} (h : D.Settles plan f site expected outcome given effect)
    (hsettle : D.settle plan given.capacity (D.freshCount site) effect site = .ok rows) :
    outcome.HasRows rows := by
  obtain ⟨r, hr, hshows⟩ := h.answers hsettle
  exact ⟨r, hr, congrArg Nat.cast hshows.entries⟩

theorem Settles.hasRows_of_fits (h : D.Settles plan f site expected outcome given effect)
    (hdecides : CountDecides effect site)
    (hnonneg : 0 ≤ (effect.count.getD (D.freshCount site)).toInt)
    (hle : (effect.count.getD (D.freshCount site)).toInt ≤ given.capacity) :
    outcome.HasRows (effect.count.getD (D.freshCount site)).toInt := by
  rw [← Word.toNat_of_nonneg hnonneg]
  exact h.hasRows (settle_of_fits hdecides rfl hnonneg hle)

theorem Settles.failsAs_of_exceeds (h : D.Settles plan f site expected outcome given effect)
    (hdecides : CountDecides effect site)
    (hlt : (given.capacity : ℤ) < (effect.count.getD (D.freshCount site)).toInt) :
    outcome.FailsAs .contractViolation :=
  h.failsAs (settle_of_exceeds hdecides rfl hlt) (kind_tooManyRows _ _)

/-- A run on the host fails by its status, or else by a row count that is negative or too large. -/
theorem Settles.host_cases (h : D.Settles plan f .host expected outcome given effect) :
    let count := (effect.count.getD (D.freshCount .host)).toInt
    (effect.status ≠ 0 → ∃ e, outcome.result = .error e ∧ e.kind = .execution ∧
      e.report.field? "code" = some (toString effect.status.toInt)) ∧
    (effect.status = 0 → count < 0 ∨ (given.capacity : ℤ) < count →
      outcome.FailsAs .contractViolation) ∧
    (effect.status = 0 → 0 ≤ count → count ≤ given.capacity → outcome.HasRows count) := by
  refine ⟨?_, ?_, h.hasRows_of_fits⟩
  · intro hstatus
    exact ⟨_, h.fails (settle_host_of_status hstatus), kind_kernelStatus _ _,
      field_kernelStatus _ _⟩
  · intro hstatus hcount
    rcases hcount with hnegative | hlt
    · exact h.failsAs ((settle_host hstatus).trans (if_pos hnegative)) (kind_rowCountUnset _ _)
    · exact h.failsAs_of_exceeds hstatus hlt

/-- A run on a device that has finished fails by its row count alone, a negative one being read as
the settings say. -/
theorem Settles.device_cases (h : D.Settles plan f (.device d) expected outcome given effect)
    (hsync : d.failsSync = false) :
    let count := (effect.count.getD (D.freshCount (.device d))).toInt
    (0 ≤ count → count ≤ given.capacity → outcome.HasRows count) ∧
    ((given.capacity : ℤ) < count → outcome.FailsAs .contractViolation) ∧
    (count < 0 → D.config.unsetRowCount = .fallbackToCapacity →
      outcome.HasRows given.capacity) ∧
    (count < 0 → D.config.unsetRowCount = .strict → outcome.FailsAs .contractViolation) := by
  refine ⟨h.hasRows_of_fits hsync, h.failsAs_of_exceeds hsync, ?_, ?_⟩
  · intro hnegative hpolicy
    exact h.hasRows (by rw [settle_device hsync, if_pos hnegative, hpolicy])
  · intro hnegative hpolicy
    exact h.failsAs (by rw [settle_device hsync, if_pos hnegative, hpolicy])
      (kind_rowCountUnset _ _)

theorem Settles.sameAnswer_withErrorCode {errorCode : KernelView → Option (BitVec 32)}
    {outcome' : Outcome} {given' : Forecast} {effect' : KernelEffect}
    (h : D.Settles plan f (.device d) (D.forecast plan f columns (.device d)) outcome given effect)
    (h' : D.Settles plan (f.withErrorCode errorCode) (.device d)
      (D.forecast plan (f.withErrorCode errorCode) columns (.device d)) outcome' given' effect') :
    SameAnswer outcome.result outcome'.result := by
  obtain rfl : given' = given := by
    have hexpected := h'.expected
    rw [D.forecast_withErrorCode, h.expected] at hexpected
    exact (Except.ok.inj hexpected).symm
  obtain ⟨run, body, -, hbody, hview, rfl⟩ := h.run
  obtain ⟨run', body', -, hbody', hview', rfl⟩ := h'.run
  change f.bodyFor .gpu = some body at hbody
  change (f.withErrorCode errorCode).bodyFor .gpu = some body' at hbody'
  rw [f.bodyFor_withErrorCode, hbody] at hbody'
  obtain rfl := Option.some.inj hbody'
  refine h.sameAnswer h' rfl ?_ ?_
  · rw [hview', hview]
  · rw [hview', hview]
    rfl

end Settled

/-- What an execution comes to once its kernel has run, by the capacity of its output, the status of
the kernel and the row count cell that it leaves behind. -/
theorem rowCount_reconciled (D : Dispatcher) (plan : Plan) (table : Table)
    (code : Option CompiledFunction) (columns : ColumnStore) (target : DeviceType) (m : Machine)
    (run : KernelRun) (hrun : run ∈ (D.execute plan table code columns target m).kernelRuns) :
    let outcome := D.execute plan table code columns target m
    ∃ request body, outcome.requests = [request] ∧ outcome.kernelRuns = [run] ∧
      code.bind (·.bodyFor target) = some body ∧
      let capacity := D.initializer.roomFor request.request.rows
      let effect := body run.view
      let count := (effect.count.getD run.view.countCell).toInt
      run.view.outputs = List.replicate plan.outputs.length (List.replicate capacity 0) ∧
      (target = .cpu →
        (effect.status ≠ 0 → ∃ e, outcome.result = .error e ∧ e.kind = .execution ∧
          e.report.field? "code" = some (toString effect.status.toInt)) ∧
        (effect.status = 0 → count < 0 ∨ (capacity : ℤ) < count →
          outcome.FailsAs .contractViolation) ∧
        (effect.status = 0 → 0 ≤ count → count ≤ capacity → outcome.HasRows count)) ∧
      (target = .gpu → ∀ d, D.device = some d → d.failsSync = false →
        (0 ≤ count → count ≤ capacity → outcome.HasRows count) ∧
        ((capacity : ℤ) < count → outcome.FailsAs .contractViolation) ∧
        (count < 0 → D.config.unsetRowCount = .fallbackToCapacity → outcome.HasRows capacity) ∧
        (count < 0 → D.config.unsetRowCount = .strict → outcome.FailsAs .contractViolation)) ∧
      (target = .gpu → ∀ errorCode,
        let other := D.execute plan table (code.map (·.withErrorCode errorCode)) columns target m
        other.kernelRuns ≠ [] → SameAnswer outcome.result other.result) ∧
      ∀ r, outcome.result = .ok r → r.capacity = capacity ∧ r.entries ≤ r.capacity ∧
        r.columnCount = plan.outputs.length ∧
        ∀ column < r.columnCount, ∀ row < r.entries,
          ∃ words, r.slots column = .ok words ∧ words.length = r.entries ∧
            (words[row]?).map Word.bytes =
              some ((List.range slotBytes).map (storedByte effect.stores column row)) := by
  obtain ⟨f, site, given, effect, rfl, rfl, hdevice, hsettles⟩ := settles_of_run hrun
  obtain ⟨request, hrequest, hcapacity⟩ := hsettles.request
  obtain ⟨run', body, hruns, hbody, hview, rfl⟩ := hsettles.run
  rw [hruns, List.mem_singleton] at hrun
  subst hrun
  have hcell : run.view.countCell = D.freshCount site := by rw [hview]; rfl
  refine ⟨request, body, hrequest, hruns, hbody, ?_⟩
  rw [← hcapacity, hcell]
  refine ⟨by rw [hview]; rfl, ?_, ?_, ?_, ?_⟩
  · intro htarget
    cases site with
    | device d => cases htarget
    | host => exact hsettles.host_cases
  · intro htarget d hd hsync
    cases site with
    | host => cases htarget
    | device d' =>
      obtain rfl : d' = d := Option.some.inj ((hdevice d' rfl).symm.trans hd)
      exact hsettles.device_cases hsync
  · intro htarget errorCode other hother
    obtain ⟨run', hrun'⟩ := List.exists_mem_of_ne_nil _ hother
    obtain ⟨f', site', given', effect', hf', hsite', hdevice', hsettles'⟩ := settles_of_run hrun'
    obtain rfl : f.withErrorCode errorCode = f' := Option.some.inj hf'
    cases site with
    | host => cases htarget
    | device d =>
      cases site' with
      | host => cases hsite'
      | device d' =>
        obtain rfl : d' = d :=
          Option.some.inj ((hdevice' d' rfl).symm.trans (hdevice d rfl))
        exact hsettles.sameAnswer_withErrorCode hsettles'
  · intro r hr
    have hshows := hsettles.shows hr
    have hcount : r.columnCount = plan.outputs.length := by
      rw [ResultSet.columnCount, hshows.types, Plan.outputTypes, List.length_map]
    refine ⟨hshows.capacity, r.entries_le, hcount, fun column hcolumn row hrow => ?_⟩
    exact hshows.bytes (hcount ▸ hcolumn) hrow

end Dispatcher

/-- One input column and one output column with room for as many rows. -/
def Sample.plan : Plan where
  name := "f"
  inputs := [.column ⟨0, 0, .int .w64⟩]
  outputs := [⟨"x", .int .w64⟩]
  sizing := some (.rowMultiplier 0x3FF0000000000000#64)

def Sample.table : Table := ⟨0, [⟨0, 1⟩]⟩

def Sample.device : Device := { slot := 0, id := 0 }

def Sample.columns : ColumnStore where
  columns := [(0, ⟨[7, 0, 0, 0, 0, 0, 0, 0], 1⟩)]
  device := some Sample.device

def Sample.dispatcher : Dispatcher := { device := some Sample.device }

/-- A kernel that stores its row count and reports it. -/
def Sample.counting : KernelBody := fun view =>
  { stores := [.word 0 0 view.rows], count := some view.rows }

def Sample.code : CompiledFunction where
  host := some Sample.counting
  device := some ⟨"k", Sample.counting, false⟩

namespace Dispatcher

theorem rowCount_reconciled_counting :
    let outcome := Sample.dispatcher.execute Sample.plan Sample.table (some Sample.code)
      Sample.columns .gpu {}
    (∃ run, run ∈ outcome.kernelRuns) ∧ outcome.HasRows 1 := by
  have hviews : (Sample.dispatcher.execute Sample.plan Sample.table (some Sample.code)
      Sample.columns .gpu {}).kernelRuns.map (·.view) =
      [{ inputs := [[7, 0, 0, 0, 0, 0, 0, 0]], rows := 1, outputs := [[0]], countCell := -1 }] := by
    decide +kernel
  have hrows : (Sample.dispatcher.execute Sample.plan Sample.table (some Sample.code)
      Sample.columns .gpu {}).requests.map (·.request.rows) = [1] := by
    decide +kernel
  obtain ⟨run, hruns, hview⟩ := List.map_eq_singleton_iff.mp hviews
  have hrun : run ∈ (Sample.dispatcher.execute Sample.plan Sample.table (some Sample.code)
      Sample.columns .gpu {}).kernelRuns := by
    rw [hruns]
    exact List.mem_singleton_self run
  obtain ⟨request, body, hrequests, -, hbody, -, -, hdevice, -, -⟩ :=
    rowCount_reconciled Sample.dispatcher Sample.plan Sample.table (some Sample.code) Sample.columns
      .gpu {} run hrun
  rw [hrequests] at hrows
  have hrequest : request.request.rows = 1 := List.singleton_inj.mp hrows
  obtain rfl : Sample.counting = body := Option.some.inj hbody
  have hfits := (hdevice rfl Sample.device rfl rfl).1
  rw [hview, hrequest] at hfits
  exact ⟨⟨run, hrun⟩, hfits (by decide) (by decide)⟩

end Dispatcher

end KernelDispatch
