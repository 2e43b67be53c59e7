import KernelDispatch.Proofs.Dispatcher.Conditions

/-!
# Constants in cells of their own

A signed integer or a float is stored in one word of its own, from which it is read back bit for
bit, now and after any further constants. Everything else is turned down with its text. Whichever
way storing a constant fails, nothing has changed.
-/

namespace KernelDispatch

/-- The value of a type that a cell shows. -/
def Scalar.ofCell? : DataType → Bytes → Option Scalar
  | .int w, cell => some (.int w (bitsAt w.bits (cell.take w.bytes)))
  | .float32, cell => some (.float32 (bitsAt 32 (cell.take 4)))
  | .float64, cell => some (.float64 (bitsAt 64 (cell.take 8)))
  | _, _ => none

namespace Scalar

variable {v : Scalar} {bytes : Bytes}

theorem take_zeroFilled {n k : ℕ} (h : bytes.length = k) : (zeroFilled n bytes).take k = bytes := by
  subst h
  exact List.take_left

theorem physicalWidth_of_literalBytes? (h : v.literalBytes? = some bytes) :
    v.datatype.physicalWidth = some bytes.length := by
  cases v <;> simp only [literalBytes?, reduceCtorEq] at h <;> cases h <;>
    simp [datatype, DataType.physicalWidth]

theorem ofCell?_zeroFilled (h : v.literalBytes? = some bytes) :
    ofCell? v.datatype (zeroFilled slotBytes bytes) = some v := by
  cases v with
  | int w n =>
    cases h
    rw [datatype, ofCell?, take_zeroFilled (length_bytesOf _ n)]
    exact congrArg (fun x => some (Scalar.int w x)) (bitsAt_bytesOf w.bytes n)
  | float32 n =>
    cases h
    rw [datatype, ofCell?, take_zeroFilled (length_bytesOf _ n)]
    exact congrArg (fun x => some (Scalar.float32 x)) (bitsAt_bytesOf 4 n)
  | float64 n =>
    cases h
    rw [datatype, ofCell?, take_zeroFilled (length_bytesOf _ n)]
    exact congrArg (fun x => some (Scalar.float64 x)) (bitsAt_bytesOf 8 n)
  | null | boolean | uint | utf8 | binary | list => cases h

end Scalar

namespace Scope

variable {s s' : Scope} {v : Scalar} {b : Buffer} {e : Failure}

/-- The scope after further constants. One that is refused or has no cell leaves it as it was. -/
def literals (s : Scope) (values : List Scalar) : Scope :=
  values.foldl (fun s v => ((literal v).run s).2) s

theorem literal_grows (h : (literal v).run s = (.ok b, s')) : s.Grows s' := by
  unfold literal at h
  split at h
  · rename_i bytes hbytes
    exact (cell_ok (Scalar.length_of_literalBytes? hbytes) h).1
  · cases h

theorem grows_literals (s : Scope) (values : List Scalar) : s.Grows (s.literals values) := by
  induction values generalizing s with
  | nil => exact .refl s
  | cons v rest ih =>
    refine Grows.trans ?_ (ih _)
    change s.Grows ((literal v).run s).2
    rcases hliteral : (literal v).run s with ⟨e | b, s'⟩
    · rw [atomic_literal v s e s' hliteral]
      exact .refl s
    · exact literal_grows hliteral

/-- A constant was stored: the context has one more allocation, a word of its own, and the constant
is read back from it. -/
structure Encodes (s : Scope) (v : Scalar) (b : Buffer) (s' : Scope) : Prop where
  /-- One word is gained behind what the context held, apart from every live block, and nothing else
  changes. -/
  gains : ∃ bytes a new, v.literalBytes? = some bytes ∧ s.Gains a new s' ∧
    b.IsCell s.context.allocations.length bytes s.context.site a new ∧
    ∀ block ∈ new, ∀ older ∈ s.machine.heap.blocks, older.stop < block.base
  /-- The value is in the first bytes and zeros are in the others, whatever is stored later. -/
  reads : ∃ cell, cell.length = slotBytes ∧ Scalar.ofCell? v.datatype cell = some v ∧
    (∀ width, v.datatype.physicalWidth = some width →
      cell.drop width = List.replicate (slotBytes - width) 0) ∧
    ∀ values, (s'.literals values).load b = .ok cell
  /-- Every buffer before it shows what it showed. -/
  keeps : ∀ older bs, s.Offers older bs → ∀ values, (s'.literals values).Offers older bs

theorem Gains.apart {a : Allocation} {new : List Block} (h : s.Gains a new s') :
    ∀ block ∈ new, ∀ older ∈ s.machine.heap.blocks, older.stop < block.base := by
  intro block hblock older holder
  have hsorted := s'.machine.heap.sorted
  rw [h.blocks] at hsorted
  exact older.stop_lt_limit.trans_le ((List.pairwise_append.mp hsorted).2.2 block hblock older
    holder)

theorem encodes_of_literal (h : (literal v).run s = (.ok b, s')) : s.Encodes v b s' := by
  have hgrows := literal_grows h
  rw [literal] at h
  cases hbytes : v.literalBytes? with
  | none =>
    rw [hbytes] at h
    cases h
  | some bytes =>
    rw [hbytes] at h
    have hlen : bytes.length ≤ slotBytes := Scalar.length_of_literalBytes? hbytes
    obtain ⟨a, new, hgain, hcell⟩ := gains_cell hlen h
    refine ⟨⟨bytes, a, new, hbytes, hgain, hcell, hgain.apart⟩, ⟨_, length_zeroFilled hlen,
      Scalar.ofCell?_zeroFilled hbytes, ?_, ?_⟩, ?_⟩
    · intro width hwidth
      rw [Scalar.physicalWidth_of_literalBytes? hbytes, Option.some.injEq] at hwidth
      subst hwidth
      exact List.drop_left
    · intro values
      exact ((grows_literals s' values).offers (hgain.offers_cell hlen hcell)).load
    · intro older bs holder values
      exact (grows_literals s' values).offers (hgrows.offers holder)

/-- Bytes that fit into a word get a cell exactly if the word is granted, and otherwise fail with
its refusal. -/
theorem cell_of_grant {bytes : Bytes} (hlen : bytes.length ≤ slotBytes) :
    (∀ m, s.machine.grant (s.context.site.demand slotBytes) = .ok m →
      ∃ b s', (cell bytes).run s = (.ok b, s')) ∧
    ∀ e, s.machine.grant (s.context.site.demand slotBytes) = .error e →
      (cell bytes).run s = (.error e, s) := by
  have hdemands := cell_demands (s := s) hlen
  rw [← Machine.grantAll_singleton]
  rcases hcell : (cell bytes).run s with ⟨e | b, s'⟩
  · have hstops : s.machine.Stops _ e := hdemands.run_error rfl hcell
    obtain ⟨rfl, hrefusal⟩ := cell_error hlen hcell
    unfold Machine.Stops at hstops
    constructor
    · intro m hgrant
      rw [hgrant] at hstops
      exact nomatch hrefusal.symm.trans hstops
    · intro e' hgrant
      rw [hgrant] at hstops
      rw [hstops]
  · obtain ⟨m, hgrant, -⟩ := hdemands.run_ok rfl hcell
    refine ⟨fun _ _ => ⟨b, s', rfl⟩, fun e he => ?_⟩
    rw [hgrant] at he
    cases he

/-- Storing a constant is all or nothing. Signed integers and floats get a cell if a word is
granted, and are read back from it. A word that is refused, a constant without a cell and bytes that
are too long for one change nothing. -/
theorem literal_all_or_nothing (s : Scope) (v : Scalar) :
    (v.HasCell → ∀ m, s.machine.grant (s.context.site.demand slotBytes) = .ok m →
      ∃ b s', (literal v).run s = (.ok b, s') ∧ s.Encodes v b s') ∧
    (v.HasCell → ∀ e, s.machine.grant (s.context.site.demand slotBytes) = .error e →
      (literal v).run s = (.error e, s) ∧ e.isRefusal = true) ∧
    (¬v.HasCell → (literal v).run s = (.error (.unsupportedLiteral v), s) ∧
      (Failure.unsupportedLiteral v).kind = .config ∧
      (Failure.unsupportedLiteral v).report.message =
        "Literal value " ++ v.text ++ " is not yet supported.") ∧
    ∀ bytes : Bytes,
      (slotBytes < bytes.length →
        (cell bytes).run s = (.error (.literalTooLong bytes.length), s) ∧
        (Failure.literalTooLong bytes.length).kind = .internal) ∧
      (bytes.length ≤ slotBytes →
        ∀ e, s.machine.grant (s.context.site.demand slotBytes) = .error e →
          (cell bytes).run s = (.error e, s)) := by
  refine ⟨fun hv m hgrant => ?_, fun hv e hgrant => ?_, fun hv => ⟨?_, ?_, ?_⟩,
    fun bytes => ⟨fun hlong => ⟨?_, ?_⟩, fun hlen e hgrant => ?_⟩⟩
  · obtain ⟨bytes, hbytes⟩ := Scalar.hasCell_iff.mp hv
    obtain ⟨b, s', hcell⟩ := (cell_of_grant (Scalar.length_of_literalBytes? hbytes)).1 m hgrant
    have hliteral : (literal v).run s = (.ok b, s') := by
      rw [literal, hbytes]
      exact hcell
    exact ⟨b, s', hliteral, encodes_of_literal hliteral⟩
  · obtain ⟨bytes, hbytes⟩ := Scalar.hasCell_iff.mp hv
    have hcell := (cell_of_grant (Scalar.length_of_literalBytes? hbytes)).2 e hgrant
    rw [literal, hbytes]
    exact ⟨hcell, Machine.grant_error hgrant⟩
  · rw [literal, Scalar.literalBytes?_eq_none_iff.mpr hv, Action.run_fail]
  · simp [Failure.kind, Failure.report, Report.config]
  · rfl
  · rw [cell, if_pos hlong, Action.run_fail]
  · simp [Failure.kind, Failure.report, Report.internal]
  · exact (cell_of_grant hlen).2 e hgrant

/-- A signalling NaN on a device that takes one allocation and on one that takes none. -/
theorem literal_all_or_nothing_nan : (Scalar.float32 0x7fa00001).HasCell ∧ ∃ s : ℕ → Scope,
    (∀ most, s most = ⟨{ site := .device ⟨0, 7, some most, false⟩ }, {}⟩) ∧
    (∃ b s', (literal (.float32 0x7fa00001)).run (s 1) = (.ok b, s') ∧
      (s 1).Encodes (.float32 0x7fa00001) b s') ∧
    (literal (.float32 0x7fa00001)).run (s 0) = (.error (.outOfDeviceMemory 7 slotBytes), s 0) := by
  have hcell : (Scalar.float32 0x7fa00001).HasCell := Or.inr (Or.inl ⟨_, rfl⟩)
  refine ⟨hcell, _, fun _ => rfl, ?_, ?_⟩
  · exact (literal_all_or_nothing _ _).1 hcell _ rfl
  · exact ((literal_all_or_nothing _ _).2.1 hcell _ rfl).1

end Scope

end KernelDispatch
