import KernelDispatch.Proofs.Context.Acquire
import KernelDispatch.Proofs.Output.CopyBack

/-!
# Views of the storage in bytes

Storage is accepted by its whole words, but mirroring and copying back go by the bytes that were
asked for. The two differ where the last word is not asked for in full: there the columns may end
behind the last byte, and a view of all of them ends the program. Everywhere else each view of a
column is in range. Buffers whose mirror was set up are among these, so that copying back never ends
the program.
-/

namespace KernelDispatch

theorem Failure.not_abort_of_refusal {e : Failure} (h : e.isRefusal = true) :
    e.isAbort = false := by
  cases e <;> first | rfl | exact absurd h Bool.false_ne_true

theorem endsProgram_eq_false {α : Type} {x : Except Failure α}
    (h : ∀ e, x = .error e → e.isAbort = false) : endsProgram x = false := by
  cases x with
  | ok a => rfl
  | error e => exact h e rfl

namespace ResultSet

variable {r : ResultSet}

theorem storageBytes_le_footprint (r : ResultSet) : r.storageBytes ≤ r.storage.footprint :=
  Nat.mul_le_mul_left 8 r.covered

theorem size_lt_storageBytes_iff (r : ResultSet) : r.storage.size < r.storageBytes ↔
    r.storage.size % 8 ≠ 0 ∧ r.columnCount * r.capacity = r.storage.slotCount := by
  have hcovered : r.columnCount * r.capacity ≤ r.storage.slotCount := r.covered
  rw [storageBytes]
  unfold HostBuffer.slotCount slotsFor at hcovered ⊢
  omega

/-- All columns are in range exactly if each is, for every row count that it has room for. -/
theorem views_in_range_iff (r : ResultSet) : r.storageBytes ≤ r.storage.size ↔
    ∀ column < r.columnCount, ∀ rows ≤ r.capacity,
      r.columnOffset column + 8 * rows ≤ r.storage.size := by
  constructor
  · intro hsize column hcolumn rows hrows
    exact (column_in_region hrows hcolumn).trans hsize
  · intro hviews
    rcases Nat.eq_zero_or_pos r.columnCount with hnone | hsome
    · rw [storageBytes, hnone, Nat.zero_mul]
      exact Nat.zero_le _
    · have hlast := hviews (r.columnCount - 1) (by omega) r.capacity le_rfl
      have hcolumns : r.columnCount * r.capacity =
          (r.columnCount - 1) * r.capacity + r.capacity := by
        rw [← Nat.succ_mul, Nat.succ_eq_add_one, Nat.sub_add_cancel hsome]
      rw [columnOffset] at hlast
      rw [storageBytes, hcolumns]
      omega

@[simp] theorem size_store (r : ResultSet) (s : Store) :
    (r.store s).storage.size = r.storage.size := by
  unfold store
  split <;> rfl

theorem storageBytes_of_alike {r' : ResultSet} (h : r.Alike r') :
    r'.storageBytes = r.storageBytes := by
  rw [storageBytes, storageBytes, h.columnCount, h.capacity]

end ResultSet

namespace OutputBuffers

variable {o o' : OutputBuffers} {dims : LaunchDims} {s s' : Scope} {columns : Address}

/-- A mirror that was set up: the columns are in range, and both allocations were granted. -/
theorem setUpMirror_ok (h : (o.setUpMirror dims).run s = (.ok (columns, o'), s')) :
    o.mirror = none ∧ o.result.storageBytes ≤ o.result.storage.size ∧ ∃ storage s₁,
      (Scope.allocDeviceWith (max o.result.storageBytes slotBytes)
        (o.result.storage.padded.take o.result.storageBytes)).run s = (.ok storage, s₁) ∧
      (Scope.allocDeviceWith (max (o.columnArray storage).length slotBytes)
        (o.columnArray storage)).run s₁ = (.ok columns, s') ∧
      o' = { o with mirror := some { storage, columns, dims } } := by
  unfold setUpMirror at h
  cases hmirror : o.mirror with
  | some mirror =>
    rw [hmirror] at h
    cases h
  | none =>
    rw [hmirror] at h
    obtain ⟨_, s₀, hview, hallocate⟩ := Action.run_bind_eq_ok_iff.mp h
    obtain ⟨storage, s₁, hstorage, hrest⟩ := Action.run_bind_eq_ok_iff.mp hallocate
    obtain ⟨columns', s₂, hcolumns, hpure⟩ := Action.run_bind_eq_ok_iff.mp hrest
    rw [Action.run_check, Prod.mk.injEq] at hview
    obtain ⟨hview, rfl⟩ := hview
    cases hpure
    refine ⟨rfl, ?_, storage, s₁, hstorage, hcolumns, rfl⟩
    unfold ResultSet.checkView at hview
    split_ifs at hview with hsize
    exact hsize

theorem not_abort_of_allocDeviceWith {n : ℕ} {src : Bytes} {e : Failure}
    (h : (Scope.allocDeviceWith n src).run s = (.error e, s')) : e.isAbort = false := by
  rcases Scope.allocDeviceWith_failure h with hrefusal | rfl | rfl
  · exact Failure.not_abort_of_refusal hrefusal
  · rfl
  · rfl

/-- With its columns in range, mirroring fails only in ways that the caller is told of. -/
theorem meets_setUpMirror (dims : LaunchDims)
    (hsize : o.result.storageBytes ≤ o.result.storage.size) :
    (o.setUpMirror dims).Meets (fun _ => True) (fun _ _ => True)
      fun e _ => e.isAbort = false := by
  have hallocate (n : ℕ) (src : Bytes) :
      (Scope.allocDeviceWith n src).Meets (fun _ => True) (fun _ _ => True)
        fun e _ => e.isAbort = false :=
    (Scope.atomic_allocDeviceWith n src).meets (fun _ _ _ _ _ => trivial) fun _ _ _ he =>
      not_abort_of_allocDeviceWith he
  unfold setUpMirror
  cases o.mirror with
  | some mirror => exact Action.meets_fail fun _ _ => rfl
  | none =>
    refine Action.meets_bind (fun _ _ => True) ?_ fun _ =>
      Action.meets_bind (fun _ _ => True) (hallocate _ _) fun storage =>
        Action.meets_bind (fun _ _ => True) (hallocate _ _) fun _ =>
          Action.meets_pure fun _ _ => trivial
    refine Action.meets_check (fun _ _ _ _ => trivial) fun _ e _ he => ?_
    rw [ResultSet.checkView_of_le hsize] at he
    cases he

/-- Mirroring ends the program exactly if there is no mirror yet and the columns are not in
range. -/
theorem setUpMirror_ends_iff : endsProgram ((o.setUpMirror dims).run s).1 = true ↔
    o.mirror = none ∧ o.result.storage.size < o.result.storageBytes := by
  constructor
  · intro hends
    have hmirror : o.mirror = none := by
      by_contra hsome
      obtain ⟨mirror, hmirror⟩ := Option.ne_none_iff_exists'.mp hsome
      unfold setUpMirror at hends
      rw [hmirror] at hends
      exact Bool.noConfusion hends
    refine ⟨hmirror, ?_⟩
    by_contra hsize
    have hmeets := meets_setUpMirror dims (not_lt.mp hsize) s trivial
    rcases hrun : (o.setUpMirror dims).run s with ⟨_ | _, s'⟩
    · rw [hrun] at hends hmeets
      exact Bool.noConfusion (hends.symm.trans hmeets)
    · rw [hrun] at hends
      exact Bool.noConfusion hends
  · rintro ⟨hmirror, hshort⟩
    have hview : o.result.checkView o.result.storageBytes =
        .error (.viewOutOfRange o.result.storageBytes o.result.storage.size) := if_neg hshort.not_ge
    unfold setUpMirror
    rw [hmirror, Action.run_bind, Action.run_check, hview]
    rfl

theorem not_abort_of_copyFrom {h : Heap} {d : Device} {a : Address} {n : ℕ} {e : Failure}
    (hcopy : h.copyFrom d a n = .error e) : e.isAbort = false := by
  unfold Heap.copyFrom at hcopy
  split at hcopy
  · cases hcopy
  · cases hcopy
    rfl

/-- With its columns in range, copying fails only in ways that the caller is told of. -/
theorem copyColumns_returns {r : ResultSet} {rows : ℕ} (h : Heap) (d : Device) (storage : Address)
    (hsize : r.storageBytes ≤ r.storage.size) (hrows : rows ≤ r.capacity) (columns : List ℕ)
    (hcolumns : ∀ c ∈ columns, c < r.columnCount) :
    endsProgram ((copyColumns h d storage rows columns).run r).1 = false := by
  induction columns generalizing r with
  | nil => rfl
  | cons column rest ih =>
    have hview : r.checkView (r.columnOffset column + 8 * rows) = .ok () := by
      apply ResultSet.checkView_of_le
      exact r.views_in_range_iff.mp hsize column (hcolumns column List.mem_cons_self) rows hrows
    rw [copyColumns, Action.run_bind, Action.run_step, hview]
    cases hcopy : h.copyFrom d (storage.advance (r.columnOffset column)) (8 * rows) with
    | error e =>
      exact endsProgram_eq_false fun e' he' => by cases he'; exact not_abort_of_copyFrom hcopy
    | ok bytes =>
      exact ih (r := r.withBytes (r.columnOffset column) bytes) hsize hrows
        fun c hc => hcolumns c (List.mem_cons_of_mem _ hc)

/-- Copying back fails only in ways that the caller is told of, whatever the device and the rows. -/
theorem copyBack_returns {rows : ℕ} (h : Heap) (d : Device)
    (hsize : o.mirror = none ∨ o.result.storageBytes ≤ o.result.storage.size) :
    endsProgram ((copyBack h d rows).run o).1 = false := by
  unfold Action.run copyBack
  cases hmirror : o.mirror with
  | none => rfl
  | some mirror =>
    simp only
    split_ifs with hrows
    · rfl
    · have hmirrored : ¬o.mirror = none := by rw [hmirror]; exact Option.some_ne_none mirror
      exact copyColumns_returns h d mirror.storage (hsize.resolve_left hmirrored)
        (not_lt.mp hrows) _ fun c hc => List.mem_range.mp hc

theorem copyColumns_extent {rows : ℕ} (h : Heap) (d : Device) (storage : Address) (columns : List ℕ)
    (r : ResultSet) :
    ((copyColumns h d storage rows columns).run r).2.storageBytes = r.storageBytes ∧
      ((copyColumns h d storage rows columns).run r).2.storage.size = r.storage.size := by
  induction columns generalizing r with
  | nil => exact ⟨rfl, rfl⟩
  | cons column rest ih =>
    rw [copyColumns, Action.run_bind, Action.run_step]
    cases hview : r.checkView (r.columnOffset column + 8 * rows) with
    | error e => exact ⟨rfl, rfl⟩
    | ok _ =>
      cases hcopy : h.copyFrom d (storage.advance (r.columnOffset column)) (8 * rows) with
      | error e => exact ⟨rfl, rfl⟩
      | ok bytes => exact ih (r.withBytes (r.columnOffset column) bytes)

theorem copyBack_extent (h : Heap) (d : Device) (rows : ℕ) (o : OutputBuffers) :
    ((copyBack h d rows).run o).2.mirror = o.mirror ∧
      ((copyBack h d rows).run o).2.result.storageBytes = o.result.storageBytes ∧
      ((copyBack h d rows).run o).2.result.storage.size = o.result.storage.size := by
  unfold Action.run copyBack
  cases hmirror : o.mirror with
  | none => exact ⟨hmirror, rfl, rfl⟩
  | some mirror =>
    simp only
    split_ifs with hrows
    · exact ⟨hmirror, rfl, rfl⟩
    · exact ⟨rfl, copyColumns_extent h d mirror.storage _ o.result⟩

/-- Buffers that were made from a result and used in any way since. -/
inductive Handled (r : ResultSet) : OutputBuffers → Prop
  | wrapped : Handled r { result := r }
  | store {o : OutputBuffers} (s : Store) :
      Handled r o → Handled r { o with result := o.result.store s }
  | setEntries {o : OutputBuffers} {rows : ℕ} {r' : ResultSet} :
      Handled r o → o.result.setEntries rows = .ok r' → Handled r { o with result := r' }
  | setUpMirror {o o' : OutputBuffers} {dims : LaunchDims} {s s' : Scope} {columns : Address} :
      Handled r o → (o.setUpMirror dims).run s = (.ok (columns, o'), s') → Handled r o'
  | copyBack {o : OutputBuffers} (h : Heap) (d : Device) (rows : ℕ) :
      Handled r o → Handled r ((copyBack h d rows).run o).2

/-- What no use of the buffers changes: the extent of their columns, and that these are in range
once there is a mirror. -/
structure Spans (r : ResultSet) (o : OutputBuffers) : Prop where
  bytes : o.result.storageBytes = r.storageBytes
  size : o.result.storage.size = r.storage.size
  mirrored : o.mirror = none ∨ r.storageBytes ≤ r.storage.size

theorem Handled.spans {r : ResultSet} (ho : Handled r o) : o.Spans r := by
  induction ho with
  | wrapped => exact ⟨rfl, rfl, Or.inl rfl⟩
  | @store o s _ ih =>
    refine ⟨?_, (o.result.size_store s).trans ih.size, ih.mirrored⟩
    exact (ResultSet.storageBytes_of_alike (o.result.alike_store s)).trans ih.bytes
  | setEntries _ hentries ih =>
    unfold ResultSet.setEntries at hentries
    split_ifs at hentries
    cases hentries
    exact ⟨ih.bytes, ih.size, ih.mirrored⟩
  | setUpMirror _ hmirror ih =>
    obtain ⟨-, hsize, _, _, -, -, rfl⟩ := setUpMirror_ok hmirror
    rw [ih.bytes, ih.size] at hsize
    exact ⟨ih.bytes, ih.size, Or.inr hsize⟩
  | @copyBack o h d rows _ ih =>
    obtain ⟨hmirror, hbytes, hsize⟩ := copyBack_extent h d rows o
    exact ⟨hbytes.trans ih.bytes, hsize.trans ih.size, ih.mirrored.imp_left hmirror.trans⟩

end OutputBuffers

namespace ResultSet

variable {types : List DataType} {storage : HostBuffer} {capacity : ℕ} {r : ResultSet}

theorem create_ok (h : create types storage capacity = .ok r) :
    r.types = types ∧ r.storage = storage ∧ r.capacity = capacity := by
  unfold create at h
  split_ifs at h
  cases h
  exact ⟨rfl, rfl, rfl⟩

/-- Storage that is accepted covers every column in words, and in bytes unless the columns take up
its last word and this was not asked for in full. Where it does not, mirroring ends the program.
Where it does, and in copying back, every view is in range, however the buffers have been used. -/
theorem views_of_accepted (h : create types storage capacity = .ok r) :
    8 * (types.length * capacity) ≤ storage.footprint ∧
    (storage.size < 8 * (types.length * capacity) ↔
      storage.size % 8 ≠ 0 ∧ types.length * capacity = storage.slotCount) ∧
    (8 * (types.length * capacity) ≤ storage.size ↔
      ∀ column < types.length, ∀ rows ≤ capacity, r.columnOffset column + 8 * rows ≤ storage.size) ∧
    ∀ o : OutputBuffers, o.Handled r →
      (∀ dims s, endsProgram ((o.setUpMirror dims).run s).1 = true ↔
        o.mirror = none ∧ storage.size < 8 * (types.length * capacity)) ∧
      ∀ heap d rows, endsProgram ((OutputBuffers.copyBack heap d rows).run o).1 = false := by
  obtain ⟨rfl, rfl, rfl⟩ := create_ok h
  refine ⟨r.storageBytes_le_footprint, r.size_lt_storageBytes_iff, r.views_in_range_iff,
    fun o ho => ⟨fun dims s => ?_, fun heap d rows => ?_⟩⟩
  · have hspans := ho.spans
    rw [OutputBuffers.setUpMirror_ends_iff, hspans.bytes, hspans.size]
    rfl
  · have hspans := ho.spans
    apply OutputBuffers.copyBack_returns
    rw [hspans.bytes, hspans.size]
    exact hspans.mirrored

/-- Two columns of a row need 16 bytes. Storage of 15 bytes is two words and accepted, and mirroring
it ends the program. -/
theorem views_of_accepted_fifteen :
    ∃ r, create [.int .w64, .int .w64] (.zeroed 15) 1 = .ok r ∧ ∀ dims s,
      endsProgram ((({ result := r } : OutputBuffers).setUpMirror dims).run s).1 = true := by
  obtain ⟨r, hr⟩ : ∃ r, create [.int .w64, .int .w64] (.zeroed 15) 1 = .ok r := ⟨_, rfl⟩
  obtain ⟨-, -, -, hhandled⟩ := views_of_accepted hr
  refine ⟨r, hr, ?_⟩
  intro dims s
  exact ((hhandled _ .wrapped).1 dims s).mpr ⟨rfl, by decide⟩

end ResultSet

end KernelDispatch
