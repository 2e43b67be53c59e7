import KernelDispatch.Output.Session
import KernelDispatch.Proofs.Output.Allocation
import KernelDispatch.Proofs.Output.Mirrored

/-!
# The round trip of output through its mirror

A session stores to the storage and to device memory, sets its mirror up, goes on storing on both
sides, and copies back. A store changes contents and nothing else: every block stays where it is,
and the columns keep their place. So a mirror is there until the context that owns it is dropped,
and until then copying back has the rows of the mirror.
-/

namespace KernelDispatch

/-- A store between the steps of a session. -/
inductive OutputStore
  /-- To the storage, at an offset. -/
  | host (offset : ℕ) (src : Bytes)
  /-- By a running kernel, which reaches the memory of every device. -/
  | kernel (a : Address) (src : Bytes)
  /-- By a copy to a device. -/
  | copy (d : Device) (a : Address) (src : Bytes)

def Block.outline (b : Block) : ℕ × ℕ × ℕ := (b.owner, b.base, b.bytes.length)

namespace Heap

variable {h h' : Heap} {d : Device} {a : Address} {src : Bytes}

theorem outlines_store? {visible : Block → Bool} (hstore : h.store? visible a src = some h') :
    h'.blocks.map Block.outline = h.blocks.map Block.outline := by
  unfold store? at hstore
  split_ifs at hstore
  cases hstore
  change (h.blocks.map (writeIn visible a src)).map Block.outline = _
  rw [List.map_map]
  apply List.map_congr_left
  intro b _
  rw [Function.comp_apply, writeIn]
  split
  · rw [Block.outline, Block.length_write]
    rfl
  · rfl

theorem outlines_poke (hpoke : h.poke a src = .ok h') :
    h'.blocks.map Block.outline = h.blocks.map Block.outline := by
  unfold poke at hpoke
  split at hpoke
  · rename_i hstore
    cases hpoke
    exact outlines_store? hstore
  · cases hpoke

theorem outlines_copyTo (hcopy : h.copyTo d a src = .ok h') :
    h'.blocks.map Block.outline = h.blocks.map Block.outline := by
  unfold copyTo at hcopy
  split at hcopy
  · rename_i hstore
    cases hcopy
    exact outlines_store? hstore
  · cases hcopy

/-- Device memory after a store, which is lost where it is refused. -/
def stored (h : Heap) : OutputStore → Heap
  | .host _ _ => h
  | .kernel a src => (h.poke a src).toOption.getD h
  | .copy d a src => (h.copyTo d a src).toOption.getD h

theorem outlines_stored (h : Heap) (s : OutputStore) :
    (h.stored s).blocks.map Block.outline = h.blocks.map Block.outline := by
  cases s with
  | host offset src => rfl
  | kernel a src =>
    rw [stored]
    cases hpoke : h.poke a src with
    | error e => rfl
    | ok h' => exact outlines_poke hpoke
  | copy d a src =>
    rw [stored]
    cases hcopy : h.copyTo d a src with
    | error e => rfl
    | ok h' => exact outlines_copyTo hcopy

end Heap

/-- A block of a context is gone once the context is dropped, and no other block has its
addresses. -/
theorem Context.not_overlaps_release {c : Context} {m : Machine} {b : Block} {start len : ℕ}
    (d : Device) (hb : b ∈ m.heap.blocks) (hkey : b.key ∈ c.keys) (hbase : b.base ≤ start)
    (hstop : start + len ≤ b.stop) : ¬(c.release m).heap.Overlaps d start len := by
  rintro ⟨b', hmem, x, hstart, hend, hbase', hstop'⟩
  obtain ⟨hmem, -⟩ := List.mem_filter.mp hmem
  rw [c.blocks_release, List.mem_filter, decide_eq_true_iff] at hmem
  rw [Block.stop] at hstop hstop'
  have hholds : b.holds x 1 = true := Block.holds_iff.mpr ⟨by omega, by omega⟩
  have hholds' : b'.holds x 1 = true := Block.holds_iff.mpr ⟨by omega, by omega⟩
  rw [Heap.eq_of_holds hb hmem.1 hholds hholds'] at hkey
  exact hmem.2 hkey

namespace OutputSession

variable {t t' t'' : OutputSession} {o : OutputBuffers} {d : Device} {mirror : Mirror} {rows : ℕ}

def stored (t : OutputSession) (s : OutputStore) : OutputSession where
  machine := { t.machine with heap := t.machine.heap.stored s }
  context := t.context
  product := t.product.map fun p =>
    match s with
    | .host offset src => p.withResult (p.resultSet.withBytes offset src)
    | .kernel _ _ => p
    | .copy _ _ _ => p

def storeAll (t : OutputSession) (stores : List OutputStore) : OutputSession :=
  stores.foldl stored t

structure Keeps (t t' : OutputSession) : Prop where
  context : t'.context = t.context
  outlines : t'.machine.heap.blocks.map Block.outline = t.machine.heap.blocks.map Block.outline
  buffers : ∀ {o : OutputBuffers}, t.product = some (.buffers o) → ∃ r,
    t'.product = some (.buffers { o with result := r }) ∧ o.result.Alike r ∧
      r.storage.size = o.result.storage.size

namespace Keeps

theorem refl (t : OutputSession) : t.Keeps t where
  context := rfl
  outlines := rfl
  buffers := by
    intro o ho
    exact ⟨o.result, ho, .refl _, rfl⟩

theorem trans (h : t.Keeps t') (h' : t'.Keeps t'') : t.Keeps t'' where
  context := h'.context.trans h.context
  outlines := h'.outlines.trans h.outlines
  buffers := by
    intro o ho
    obtain ⟨r, hr, halike, hsize⟩ := h.buffers ho
    obtain ⟨r', hr', halike', hsize'⟩ := h'.buffers hr
    exact ⟨r', hr', halike.trans halike', hsize'.trans hsize⟩

end Keeps

theorem keeps_stored (t : OutputSession) (s : OutputStore) : t.Keeps (t.stored s) where
  context := rfl
  outlines := t.machine.heap.outlines_stored s
  buffers := by
    intro o ho
    unfold stored
    rw [ho]
    cases s with
    | host offset src => exact ⟨_, rfl, o.result.alike_withBytes offset src, rfl⟩
    | kernel a src => exact ⟨_, rfl, .refl _, rfl⟩
    | copy d a src => exact ⟨_, rfl, .refl _, rfl⟩

theorem keeps_storeAll (t : OutputSession) (stores : List OutputStore) :
    t.Keeps (t.storeAll stores) := by
  induction stores generalizing t with
  | nil => exact .refl t
  | cons s rest ih => exact (t.keeps_stored s).trans (ih (t.stored s))

end OutputSession

/-- A mirror is there after stores as it was before. -/
theorem Mirror.IsBlock.of_keeps {mirror : Mirror} {r r' : ResultSet} {t t' : OutputSession}
    {d : Device} {b : Block} (hb : mirror.IsBlock r d t.machine.heap b) (hkeeps : t.Keeps t')
    (halike : r.Alike r') : ∃ b', mirror.IsBlock r' d t'.machine.heap b' := by
  have hmem : b.outline ∈ t'.machine.heap.blocks.map Block.outline := by
    rw [hkeeps.outlines]
    exact List.mem_map_of_mem hb.mem
  obtain ⟨b', hb', houtline⟩ := List.mem_map.mp hmem
  simp only [Block.outline, Prod.mk.injEq] at houtline
  obtain ⟨howner, hbase, hlength⟩ := houtline
  refine ⟨b', hb', howner.trans hb.owner, hbase.trans hb.base, ?_⟩
  rw [hlength, hb.length, ResultSet.storageBytes_of_alike halike]

/-- What copying back does in any session with these buffers, whatever has become of device
memory. -/
structure OutputBuffers.CopiesBack (o : OutputBuffers) (mirror : Mirror) : Prop where
  /-- As long as the device has the mirror, the first rows of each column become those of the
  mirror. The rows behind them, the machine and the context stay. -/
  copied : ∀ {t : OutputSession} {d : Device} {b : Block} {rows : ℕ},
    t.product = some (.buffers o) → mirror.IsBlock o.result d t.machine.heap b →
    rows ≤ o.result.capacity → ∃ o',
      (OutputSession.perform (.copyBack rows d)).run t =
        (.ok .done, { t with product := some (.buffers o') }) ∧
      o'.mirror = some mirror ∧ o.result.Alike o'.result ∧
      ∀ column < o.result.columnCount, ∃ words,
        mirror.columnWords o.result d t.machine.heap column = .ok words ∧
        o'.result.columnWords column = words.take rows ++ (o.result.columnWords column).drop rows
  /-- More rows than there is room for are refused. -/
  tooLong : ∀ {t : OutputSession} {d : Device} {rows : ℕ}, t.product = some (.buffers o) →
    o.result.capacity < rows → (OutputSession.perform (.copyBack rows d)).run t =
      (.error (.copyBackTooLong rows o.result.capacity), t)
  /-- A device that has nothing at the addresses of the mirror is refused. -/
  unreached : ∀ {t : OutputSession} {d : Device} {rows : ℕ}, t.product = some (.buffers o) →
    0 < o.result.columnCount → 0 < rows → rows ≤ o.result.capacity →
    ¬t.machine.heap.Overlaps d mirror.storage.value o.result.storageBytes →
    (OutputSession.perform (.copyBack rows d)).run t =
      (.error (.accessOutsideAllocations mirror.storage (8 * rows)), t)

namespace OutputSession

variable {t t₀ t₁ : OutputSession} {o : OutputBuffers} {d : Device} {mirror : Mirror} {rows : ℕ}

theorem run_copyBack {answer : Except Failure Unit} {o' : OutputBuffers}
    (ho : t.product = some (.buffers o))
    (hrun : (OutputBuffers.copyBack t.machine.heap d rows).run o = (answer, o')) :
    (perform (.copyBack rows d)).run t =
      (answer.map fun _ => .done, { t with product := some (.buffers o') }) := by
  change (copyBack rows d).run t = _
  unfold Action.run copyBack
  rw [ho]
  simp only
  rw [hrun]

theorem run_copyBack_error {e : Failure} (ho : t.product = some (.buffers o))
    (hrun : (OutputBuffers.copyBack t.machine.heap d rows).run o = (.error e, o)) :
    (perform (.copyBack rows d)).run t = (.error e, t) := by
  rw [run_copyBack ho hrun, ← ho]
  rfl

theorem copiesBack (hmirror : o.mirror = some mirror)
    (hsize : o.result.storageBytes ≤ o.result.storage.size) : o.CopiesBack mirror where
  copied := by
    intro t d b rows ho hb hrows
    obtain ⟨o', hrun, hmirror', hdone⟩ := OutputBuffers.copyBack_of_mirror hmirror hb hsize hrows
    exact ⟨o', run_copyBack ho hrun, hmirror'.trans hmirror, hdone⟩
  tooLong := by
    intro t d rows ho hrows
    exact run_copyBack_error ho (OutputBuffers.copyBack_tooLong _ d hmirror hrows)
  unreached := by
    intro t d rows ho hcolumns hpos hrows hnone
    exact run_copyBack_error ho
      (OutputBuffers.copyBack_unreached hmirror hsize hcolumns hpos hrows hnone)

theorem columnDistances_of_holds {h : Heap} (hholds : mirror.Holds o.result d h) :
    columnDistances h mirror.columns o.result.columnCount =
      .ok ((List.range o.result.columnCount).map fun column =>
        ((8 * (column * o.result.capacity) : ℕ) : ℤ)) := by
  let address (column : ℕ) : Address := mirror.storage.advance (o.result.columnOffset column)
  have hread : (List.range o.result.columnCount).mapM (KernelParams.entry h mirror.columns) =
      .ok ((List.range o.result.columnCount).map address) := by
    apply mapM_ok
    rw [List.forall₂_map_right_iff, List.forall₂_same]
    exact fun column hcolumn => hholds.entries column (List.mem_range.mp hcolumn)
  refine bind_eq_ok_iff.mpr ⟨_, hread, congrArg Except.ok ?_⟩
  rw [List.map_map]
  apply List.map_congr_left
  intro column hcolumn
  have hcolumn := List.mem_range.mp hcolumn
  have hfirst : ((List.range o.result.columnCount).map address).headD .null = address 0 := by
    obtain ⟨n, hn⟩ := Nat.exists_eq_succ_of_ne_zero (Nat.ne_zero_of_lt hcolumn)
    rw [hn, List.range_succ_eq_map]
    rfl
  have hvalue := hholds.values column hcolumn
  have hbase := hholds.values 0 (Nat.zero_lt_of_lt hcolumn)
  rw [Nat.zero_mul, Nat.mul_zero, Nat.add_zero] at hbase
  rw [Function.comp_apply, hfirst]
  simp only [address]
  rw [hvalue, hbase, Nat.cast_add, add_sub_cancel_left]

theorem allocated_ok {plan : Plan} {request : OutputRequest} {c : Context} {m : Machine}
    (h : allocated plan request c m = .ok t₀) :
    ∃ o, t₀.product = some (.buffers o) ∧ t₀.context = some c ∧ o.Zeroed plan request.rows := by
  unfold allocated at h
  rcases hallocate : (request.allocateColumns plan).run ⟨c, m⟩ with ⟨e | o, s⟩
  · rw [hallocate] at h
    cases h
  rw [hallocate] at h
  cases h
  obtain ⟨-, -, hzeroed, -, hcontext, -⟩ := OutputRequest.allocateColumns_ok hallocate
  exact ⟨o, rfl, congrArg some hcontext, hzeroed⟩

theorem setUpMirror_run {dims : LaunchDims} {answer : OutputAnswer} {c : Context}
    (ho : t.product = some (.buffers o)) (hc : t.context = some c)
    (hrun : (perform (.setUpMirror dims)).run t = (.ok answer, t₁)) :
    ∃ columns o' s', (o.setUpMirror dims).run ⟨c, t.machine⟩ = (.ok (columns, o'), s') ∧
      (columnDistances s'.machine.heap columns o'.result.columnCount).map .distances = .ok answer ∧
      t₁ =
        { machine := s'.machine, context := some s'.context, product := some (.buffers o') } := by
  change (mirrored dims).run t = _ at hrun
  unfold Action.run mirrored at hrun
  rw [hc, ho] at hrun
  simp only at hrun
  rcases hset : (o.setUpMirror dims).run ⟨c, t.machine⟩ with ⟨e | ⟨columns, o'⟩, s'⟩
  · rw [hset] at hrun
    cases hrun
  · rw [hset] at hrun
    simp only [Prod.mk.injEq] at hrun
    exact ⟨columns, o', s', rfl, hrun.1, hrun.2.symm⟩

theorem dropContext_run {c : Context} {b : Block} {start len : ℕ} (hc : t.context = some c)
    (hb : b ∈ t.machine.heap.blocks) (hkey : b.key ∈ c.keys) (hbase : b.base ≤ start)
    (hstop : start + len ≤ b.stop) :
    ∃ t', (perform .dropContext).run t = (.ok .done, t') ∧ t'.product = t.product ∧
      ∀ d, ¬t'.machine.heap.Overlaps d start len := by
  refine ⟨{ t with machine := c.release t.machine, context := none }, ?_, rfl, ?_⟩
  · unfold perform
    rw [Action.run_step]
    simp only [hc]
  · intro d
    exact Context.not_overlaps_release d hb hkey hbase hstop

/-- After stores on either side the mirror is where it was until the context is dropped, and then no
device has anything at its addresses. -/
theorem mirror_after_stores {c : Context} {b : Block} (ho : t.product = some (.buffers o))
    (hc : t.context = some c) (hmirror : o.mirror = some mirror)
    (hsize : o.result.storageBytes ≤ o.result.storage.size)
    (hb : mirror.IsBlock o.result d t.machine.heap b)
    (hkey : (d.slot, mirror.storage.value) ∈ c.keys) (stores : List OutputStore) :
    ∃ o' b', (t.storeAll stores).product = some (.buffers o') ∧
      o.result.Alike o'.result ∧ o'.CopiesBack mirror ∧
      mirror.IsBlock o'.result d (t.storeAll stores).machine.heap b' ∧
      ∃ t', (perform .dropContext).run (t.storeAll stores) = (.ok .done, t') ∧
        t'.product = some (.buffers o') ∧
        ∀ d', ¬t'.machine.heap.Overlaps d' mirror.storage.value o'.result.storageBytes := by
  have hkeeps := t.keeps_storeAll stores
  obtain ⟨r, hr, halike, hsame⟩ := hkeeps.buffers ho
  obtain ⟨b', hb'⟩ := hb.of_keeps hkeeps halike
  have hcontext : (t.storeAll stores).context = some c := hkeeps.context.trans hc
  have hsize' : r.storageBytes ≤ r.storage.size := by
    rw [ResultSet.storageBytes_of_alike halike, hsame]
    exact hsize
  have hown : b'.key ∈ c.keys := by
    rw [Block.key, hb'.owner, hb'.base]
    exact hkey
  have hextent : mirror.storage.value + r.storageBytes ≤ b'.stop := by
    rw [Block.stop, hb'.base]
    exact Nat.add_le_add_left hb'.room _
  obtain ⟨t', hdropped, hproduct, hgone⟩ :=
    dropContext_run hcontext hb'.mem hown hb'.base.le hextent
  exact ⟨{ o with result := r }, b', hr, halike, copiesBack hmirror hsize', hb', t', hdropped,
    hproduct.trans hr, hgone⟩

/-- The round trip. Before the mirror is set up there is nothing to copy from. Then it holds every
column of the storage, at the address that the array beside it has for the column. After any stores
on either side it is still there, and copying back has its rows, as `CopiesBack` says. Once the
context is dropped, no device has anything at the addresses of the mirror. -/
theorem mirror_round_trip {plan : Plan} {request : OutputRequest} {c : Context} {m : Machine}
    {dims : LaunchDims} {answer : OutputAnswer} (hstart : allocated plan request c m = .ok t₀)
    (before : List OutputStore)
    (hrun : (perform (.setUpMirror dims)).run (t₀.storeAll before) = (.ok answer, t₁)) :
    (∀ d rows, (perform (.copyBack rows d)).run (t₀.storeAll before) =
      (.error .noMirror, t₀.storeAll before)) ∧
    ∃ d mirror o, c.site = .device d ∧
      o.result.types = plan.outputTypes ∧ o.result.capacity = request.rows ∧
      (t₀.storeAll before).product = some (.buffers o) ∧
      t₁.product = some (.buffers { o with mirror := some mirror }) ∧
      mirror.Holds o.result d t₁.machine.heap ∧
      answer = .distances ((List.range o.result.columnCount).map fun column =>
        ((8 * (column * o.result.capacity) : ℕ) : ℤ)) ∧
      ∀ after, ∃ o' b, (t₁.storeAll after).product = some (.buffers o') ∧
        o.result.Alike o'.result ∧ o'.CopiesBack mirror ∧
        mirror.IsBlock o'.result d (t₁.storeAll after).machine.heap b ∧
        ∃ t, (perform .dropContext).run (t₁.storeAll after) = (.ok .done, t) ∧
          t.product = some (.buffers o') ∧
          ∀ d', ¬t.machine.heap.Overlaps d' mirror.storage.value o'.result.storageBytes := by
  obtain ⟨o₀, ho₀, hc₀, hzeroed⟩ := allocated_ok hstart
  have hbefore := t₀.keeps_storeAll before
  obtain ⟨r, hr, halike, hsize⟩ := hbefore.buffers ho₀
  have hcontext : (t₀.storeAll before).context = some c := hbefore.context.trans hc₀
  obtain ⟨columns, o', s', hset, hdistances, rfl⟩ := setUpMirror_run hr hcontext hrun
  obtain ⟨d, mirror, hsite, rfl, rfl, hin, hkey, hholds⟩ := OutputBuffers.setUpMirror_holds hset
  obtain ⟨b, hb, -⟩ := hholds.inside
  rw [columnDistances_of_holds hholds] at hdistances
  cases hdistances
  constructor
  · intro d rows
    exact run_copyBack_error hr (OutputBuffers.copyBack_unmirrored _ d rows hzeroed.mirror)
  · refine ⟨d, mirror, { o₀ with result := r }, hsite, halike.types.trans hzeroed.types,
      halike.capacity.trans hzeroed.capacity, hr, rfl, hholds, rfl, ?_⟩
    intro after
    exact mirror_after_stores (o := { result := r, mirror := some mirror }) rfl rfl rfl hin hb hkey
      after

/-- Two columns of three words lie 24 bytes apart. Whatever is stored once the mirror is set up, two
rows can be copied back, and four cannot. -/
theorem mirror_round_trip_two :
    let d : Device := { slot := 0, id := 0 }
    let plan : Plan :=
      { name := "f", inputs := [], outputs := [⟨"x", .int .w64⟩, ⟨"y", .int .w64⟩], sizing := none }
    let request : OutputRequest :=
      { layout := .ofPlan plan, deviceId := 0, deviceType := .gpu, rows := 3, inputGroups := [[]],
        offsetGroups := [[]] }
    ∃ t₀ t₁, allocated plan request { site := .device d } {} = .ok t₀ ∧
      (perform (.setUpMirror {})).run (t₀.storeAll [.host 0 [7]]) = (.ok (.distances [0, 24]), t₁) ∧
      ∀ after, (∃ t, (perform (.copyBack 2 d)).run (t₁.storeAll after) = (.ok .done, t)) ∧
        (perform (.copyBack 4 d)).run (t₁.storeAll after) =
          (.error (.copyBackTooLong 4 3), t₁.storeAll after) := by
  intro d plan request
  have hmirrored : ((allocated plan request { site := .device d } {}).toOption.map fun t =>
      ((perform (.setUpMirror {})).run (t.storeAll [.host 0 [7]])).1.toOption.isSome) =
        some true := by
    decide +kernel
  rcases hstart : allocated plan request { site := .device d } {} with e | t₀
  · rw [hstart] at hmirrored
    cases hmirrored
  rw [hstart] at hmirrored
  rcases hrun : (perform (.setUpMirror {})).run (t₀.storeAll [.host 0 [7]]) with ⟨e | answer, t₁⟩
  · simp only [Except.toOption, Option.map_some, hrun, Option.isSome_none, Option.some.injEq,
      Bool.false_eq_true] at hmirrored
  obtain ⟨-, d', mirror, o, hsite, htypes, hcapacity, -, -, -, rfl, hafter⟩ :=
    mirror_round_trip hstart _ hrun
  cases hsite
  have hcolumns : o.result.columnCount = 2 := by
    rw [ResultSet.columnCount, htypes]
    rfl
  refine ⟨t₀, t₁, rfl, ?_, ?_⟩
  · rw [hrun, hcolumns, hcapacity]
    rfl
  · intro after
    obtain ⟨o', b, ho', halike, hcopies, hb, -⟩ := hafter after
    have hroom : o'.result.capacity = 3 := halike.capacity.trans hcapacity
    have htooLong : (perform (.copyBack 4 d)).run (t₁.storeAll after) =
        (.error (.copyBackTooLong 4 o'.result.capacity), t₁.storeAll after) :=
      hcopies.tooLong ho' (by omega)
    rw [hroom] at htooLong
    have htwo : 2 ≤ o'.result.capacity := by omega
    obtain ⟨o'', hcopied, -⟩ := hcopies.copied ho' hb htwo
    exact ⟨⟨_, hcopied⟩, htooLong⟩

end OutputSession

end KernelDispatch
