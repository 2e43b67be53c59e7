import KernelDispatch.Proofs.Action
import KernelDispatch.Proofs.Output.Stores

/-!
# Copying rows back from a mirror

The rows that count are copied column by column. Each copy changes the first rows of its own column
and nothing else, so that afterwards these rows are those of the mirror in every column.
-/

namespace KernelDispatch

namespace ResultSet

variable {r : ResultSet} {column rows : ℕ}

theorem checkView_of_le {stop : ℕ} (h : stop ≤ r.storage.size) : r.checkView stop = .ok () :=
  if_pos h

theorem columns_fit (r : ResultSet) :
    8 * (r.columnCount * r.capacity) ≤ r.storage.padded.length := by
  rw [r.length_padded]
  exact Nat.mul_le_mul_left 8 r.covered

theorem column_in_region (hrows : rows ≤ r.capacity) (hcolumn : column < r.columnCount) :
    8 * (column * r.capacity) + 8 * rows ≤ 8 * (r.columnCount * r.capacity) := by
  have hcolumns : (column + 1) * r.capacity ≤ r.columnCount * r.capacity :=
    Nat.mul_le_mul_right _ hcolumn
  rw [Nat.add_mul, one_mul] at hcolumns
  omega

/-- Copying the first rows of a column from a mirror changes these words and no other word. -/
theorem getElem?_withColumn {mirror : Bytes} {row k : ℕ} (other : ℕ) (hrows : rows ≤ r.capacity)
    (hcolumn : column < r.columnCount)
    (hroom : 8 * (r.columnCount * r.capacity) ≤ mirror.length) (hrow : row < r.capacity)
    (hk : k < 8) : (r.withBytes (8 * (column * r.capacity))
        (slice mirror (8 * (column * r.capacity)) (8 * rows))).storage.padded[
          8 * (other * r.capacity) + 8 * row + k]? =
      if other = column ∧ row < rows then mirror[8 * (other * r.capacity) + 8 * row + k]?
      else r.storage.padded[8 * (other * r.capacity) + 8 * row + k]? := by
  have hin := column_in_region hrows hcolumn
  have hfit := r.columns_fit
  have hlen : (slice mirror (8 * (column * r.capacity)) (8 * rows)).length = 8 * rows :=
    length_slice (by omega)
  change (overwrite r.storage.padded _ _)[8 * (other * r.capacity) + 8 * row + k]? = _
  split_ifs with hcopied
  · obtain ⟨rfl, hcopied⟩ := hcopied
    rw [getElem?_overwrite_of_inside (by omega) (by omega) (by omega), getElem?_slice (by omega)]
    refine congrArg (fun i => mirror[i]?) ?_
    omega
  · apply getElem?_overwrite_of_outside
    rw [hlen]
    rcases Nat.lt_trichotomy other column with hlt | rfl | hgt
    · have hcolumns : (other + 1) * r.capacity ≤ column * r.capacity := Nat.mul_le_mul_right _ hlt
      rw [Nat.add_mul, one_mul] at hcolumns
      left
      omega
    · right
      have : ¬row < rows := fun h => hcopied ⟨rfl, h⟩
      omega
    · have hcolumns : (column + 1) * r.capacity ≤ other * r.capacity := Nat.mul_le_mul_right _ hgt
      rw [Nat.add_mul, one_mul] at hcolumns
      right
      omega

end ResultSet

namespace OutputBuffers

variable {h : Heap} {d : Device} {storage : Address} {b : Block} {rows : ℕ}

/-- The first rows of every column in the list are copied, and nothing else changes. -/
theorem copyColumns_ok {r : ResultSet} (hb : b ∈ h.blocks) (howner : b.owner = d.slot)
    (ha : b.base = storage.value) (hroom : 8 * (r.columnCount * r.capacity) ≤ b.bytes.length)
    (hsize : r.storageBytes ≤ r.storage.size) (hrows : rows ≤ r.capacity) (columns : List ℕ)
    (hcolumns : ∀ c ∈ columns, c < r.columnCount) :
    ∃ r', (copyColumns h d storage rows columns).run r = (.ok (), r') ∧ r.Alike r' ∧
      ∀ c, ∀ row < r.capacity, ∀ k < 8, r'.storage.padded[8 * (c * r.capacity) + 8 * row + k]? =
        if c ∈ columns ∧ row < rows then b.bytes[8 * (c * r.capacity) + 8 * row + k]?
        else r.storage.padded[8 * (c * r.capacity) + 8 * row + k]? := by
  induction columns generalizing r with
  | nil => exact ⟨r, rfl, .refl r, fun c row _ k _ => (if_neg fun hc => List.not_mem_nil hc.1).symm⟩
  | cons column rest ih =>
    have hcolumn := hcolumns column List.mem_cons_self
    have hin := ResultSet.column_in_region hrows hcolumn
    let copied := r.withBytes (8 * (column * r.capacity))
      (slice b.bytes (8 * (column * r.capacity)) (8 * rows))
    have hcopy : h.copyFrom d (storage.advance (r.columnOffset column)) (8 * rows) =
        .ok (slice b.bytes (8 * (column * r.capacity)) (8 * rows)) :=
      Heap.copyFrom_advance _ hb howner ha (by rw [ResultSet.columnOffset]; omega)
    have hview : r.checkView (r.columnOffset column + 8 * rows) = .ok () := by
      apply ResultSet.checkView_of_le
      rw [ResultSet.storageBytes] at hsize
      rw [ResultSet.columnOffset]
      omega
    obtain ⟨r', hrun, halike, hbytes⟩ := ih (r := copied) hroom hsize hrows
      fun c hc => hcolumns c (List.mem_cons_of_mem _ hc)
    refine ⟨r', ?_, (r.alike_withBytes _ _).trans halike, fun c row hrow k hk => ?_⟩
    · rw [copyColumns, Action.run_bind, Action.run_step, hview, hcopy]
      exact hrun
    · have hcopied := ResultSet.getElem?_withColumn c hrows hcolumn hroom hrow hk
      refine (hbytes c row hrow k hk).trans ?_
      by_cases hrest : c ∈ rest ∧ row < rows
      · rw [if_pos hrest, if_pos ⟨List.mem_cons_of_mem _ hrest.1, hrest.2⟩]
        rfl
      · rw [if_neg hrest]
        refine hcopied.trans (if_congr ?_ rfl rfl)
        constructor
        · rintro ⟨rfl, hlt⟩
          exact ⟨List.mem_cons_self, hlt⟩
        · rintro ⟨hmem, hlt⟩
          exact ⟨(List.mem_cons.mp hmem).resolve_right fun hc => hrest ⟨hc, hlt⟩, hlt⟩

/-- The first rows of every column become those of the mirror; the rows behind them stay. -/
theorem copyBack_ok {o : OutputBuffers} {mirror : Mirror} (hmirror : o.mirror = some mirror)
    (hb : b ∈ h.blocks) (howner : b.owner = d.slot) (ha : b.base = mirror.storage.value)
    (hroom : 8 * (o.result.columnCount * o.result.capacity) ≤ b.bytes.length)
    (hsize : o.result.storageBytes ≤ o.result.storage.size) (hrows : rows ≤ o.result.capacity) :
    ∃ o', (copyBack h d rows).run o = (.ok (), o') ∧ o'.mirror = o.mirror ∧
      o.result.Alike o'.result ∧
      ∀ column < o.result.columnCount, ∀ row < o.result.capacity, ∀ k < 8,
        o'.result.storage.padded[8 * (column * o.result.capacity) + 8 * row + k]? =
          if row < rows then b.bytes[8 * (column * o.result.capacity) + 8 * row + k]?
          else o.result.storage.padded[8 * (column * o.result.capacity) + 8 * row + k]? := by
  obtain ⟨r', hrun, halike, hbytes⟩ := copyColumns_ok (r := o.result) hb howner ha hroom hsize hrows
    (List.range o.result.columnCount) fun c hc => List.mem_range.mp hc
  refine ⟨{ o with result := r' }, ?_, rfl, halike, fun column hcolumn row hrow k hk => ?_⟩
  · unfold Action.run copyBack
    rw [hmirror]
    simp only
    rw [if_neg (by omega), hrun]
  · refine (hbytes column row hrow k hk).trans (if_congr ?_ rfl rfl)
    exact and_iff_right (List.mem_range.mpr hcolumn)

end OutputBuffers

end KernelDispatch
