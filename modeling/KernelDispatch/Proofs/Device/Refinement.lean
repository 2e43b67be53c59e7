import KernelDispatch.Proofs.Device.ByteArrays

/-!
# The heap refines independent byte arrays

All devices have their blocks in one heap. To each of them the heap is a device of its own: what
others do leaves its blocks alone, and an operation of its own is answered as by a search of these
blocks in any order. So the memory of a device is a set of independent byte arrays, whatever happens
in between.
-/

namespace KernelDispatch

open DeviceHistory

namespace Heap

variable {h h' : Heap} {d d' : Device} {a : Address} {n len : ℕ} {src : Bytes} {order : List Block}
  {visible : Block → Bool}

/-- One operation on a device of the heap. One that fails leaves the heap as it was. -/
def serve (h : Heap) (d : Device) : DeviceStep → Except Failure DeviceAnswer × Heap
  | .alloc n =>
    match h.alloc d n with
    | .ok (a, h') => (.ok (.address a), h')
    | .error e => (.error e, h)
  | .free a => (.ok .done, h.free d a)
  | .copyTo a src =>
    match h.copyTo d a src with
    | .ok h' => (.ok .done, h')
    | .error e => (.error e, h)
  | .copyFrom a len => ((h.copyFrom d a len).map .bytes, h)

/-- The heap after operations on devices, the newest of which comes first. -/
def afterSteps (h : Heap) : List (Device × DeviceStep) → Heap
  | [] => h
  | (d, s) :: earlier => ((h.afterSteps earlier).serve d s).2

/-- What one of the devices was asked and has answered. -/
def historyOf (h : Heap) (d : Device) : List (Device × DeviceStep) → List DeviceEvent
  | [] => []
  | (d', s) :: earlier =>
    if d' = d then (s, ((h.afterSteps earlier).serve d s).1) :: h.historyOf d earlier
    else h.historyOf d earlier

theorem mem_blocksOf {b : Block} : b ∈ h.blocksOf d ↔ b ∈ h.blocks ∧ b.owner = d.slot := by
  rw [blocksOf, List.mem_filter, beq_iff_eq]

theorem apart_blocksOf : (h.blocksOf d).Pairwise fun b c => Apart b.place c.place := by
  refine (h.sorted.imp ?_).filter _
  intro b c hle
  have hspan : backing c.bytes.length ≤ spanOf c.bytes.length := Nat.le_add_right _ _
  simp only [Block.limit] at hle
  exact Or.inr (by simp only [Block.place]; omega)

theorem placed_top (room : h.top + spanOf n ≤ addressSpace) :
    Placed (h.blocksOf d) n (.ofNat h.top) := by
  have hspan : backing n < spanOf n := Nat.lt_add_of_pos_right (by decide)
  have htop : (Address.ofNat h.top).value = h.top := Address.value_ofNat (by omega)
  refine ⟨by omega, fun b hb => Or.inr ?_⟩
  have hlimit := h.limit_le_top (mem_blocksOf.mp hb).1
  have hblock : backing b.bytes.length ≤ spanOf b.bytes.length := Nat.le_add_right _ _
  simp only [Block.limit] at hlimit
  omega

theorem exists_holds_iff_any : (∃ b ∈ h.blocksOf d, b.holds a.value len = true) ↔
    (h.blocks.any fun b => b.owner == d.slot && b.holds a.value len) = true := by
  simp [mem_blocksOf, List.any_eq_true, and_assoc]

theorem blocksOf_map_writeIn : (h.blocks.map (writeIn visible a src)).filter (·.owner == d.slot) =
    (h.blocksOf d).map (writeIn visible a src) := by
  have howner (b : Block) : (writeIn visible a src b).owner = b.owner := by
    unfold writeIn
    split <;> rfl
  simp only [List.filter_map, Function.comp_def, howner]
  rfl

theorem copyTo_of_holds (hholds : ∃ b ∈ h.blocksOf d, b.holds a.value src.length = true) :
    ∃ h', h.copyTo d a src = .ok h' ∧
      h'.blocksOf d = (h.blocksOf d).map (·.patched a.value src) := by
  obtain ⟨h', hstore, hblocks⟩ : ∃ h', h.store? (·.owner == d.slot) a src = some h' ∧
      h'.blocks = h.blocks.map (writeIn (·.owner == d.slot) a src) :=
    ⟨_, if_pos (exists_holds_iff_any.mp hholds), rfl⟩
  refine ⟨h', by rw [copyTo, hstore], ?_⟩
  rw [blocksOf, hblocks, blocksOf_map_writeIn]
  obtain ⟨b, hb, hheld⟩ := hholds
  apply List.map_congr_left
  intro c hc
  have hvisible : (c.owner == d.slot) = true := beq_iff_eq.mpr (mem_blocksOf.mp hc).2
  by_cases hcheld : c.holds a.value src.length = true
  · rw [writeIn, hvisible, Bool.true_and, if_pos hcheld, patched_of_holds hcheld]
  · have hne : b ≠ c := by
      rintro rfl
      exact hcheld hheld
    have : Std.Symm fun b c : Block => Apart b.place c.place := ⟨fun _ _ => Apart.symm⟩
    have hapart := apart_blocksOf.forall hb hc hne
    rw [writeIn, hvisible, Bool.true_and, if_neg hcheld, patched_of_apart hapart hheld]

theorem copyTo_of_not_holds (hnone : ¬∃ b ∈ h.blocksOf d, b.holds a.value src.length = true) :
    h.copyTo d a src = .error (.accessOutsideAllocations a src.length) := by
  rw [copyTo, store?, if_neg (mt exists_holds_iff_any.mpr hnone)]

/-- The blocks of a device are served like a map that lists them in this order. -/
theorem serve_blocksOf (h : Heap) (d : Device) (s : DeviceStep) :
    ∃ place, (∀ n a, s = .alloc n → place = some a → Placed (h.blocksOf d) n a) ∧
      d.serve place (h.blocksOf d) s = ((h.serve d s).1, (h.serve d s).2.blocksOf d) := by
  cases s with
  | alloc n =>
    by_cases hroom : h.top + spanOf n ≤ addressSpace
    · refine ⟨some (.ofNat h.top), ?_, ?_⟩
      · rintro _ _ ⟨⟩ ⟨⟩
        exact placed_top hroom
      · by_cases hadmits : h.admits d = true
        · have halloc := h.alloc_eq_ok_iff.mpr ⟨hadmits, hroom, rfl, rfl⟩
          have hblocks : (h.push d n hroom).blocksOf d =
              ⟨d.slot, (Address.ofNat h.top).value, List.replicate n 0⟩ :: h.blocksOf d := by
            rw [blocksOf, blocks_alloc halloc]
            exact List.filter_cons_of_pos (by simp)
          rw [serve, halloc, Device.serve]
          simp only [hblocks]
          exact if_pos hadmits
        · have halloc : h.alloc d n = .error (.outOfDeviceMemory d.id n) := if_neg hadmits
          rw [serve, halloc, Device.serve]
          exact if_neg hadmits
    · refine ⟨none, by simp, ?_⟩
      have halloc : h.alloc d n = .error (.outOfDeviceMemory d.id n) := by
        rw [alloc, dif_neg hroom, ite_self]
      rw [serve, halloc]
      rfl
  | free a =>
    refine ⟨none, by simp, ?_⟩
    simp only [Device.serve, serve, blocksOf, free, List.filter_filter]
    congr 2
    funext b
    cases b.owner == d.slot <;> simp [bne]
  | copyTo a src =>
    refine ⟨none, by simp, ?_⟩
    by_cases hholds : ∃ b ∈ h.blocksOf d, b.holds a.value src.length = true
    · obtain ⟨h', hcopy, hblocks⟩ := copyTo_of_holds hholds
      rw [serve, hcopy, Device.serve]
      cases hvisit : visit a.value src.length (·.write a.value src) (h.blocksOf d) with
      | none =>
        obtain ⟨b, hb, hheld⟩ := hholds
        exact absurd hheld (visit_eq_none_iff.mp hvisit b hb)
      | some found => simp only [hblocks, visit_write apart_blocksOf hvisit]
    · have hvisit : visit a.value src.length (·.write a.value src) (h.blocksOf d) = none :=
        visit_eq_none_iff.mpr fun b hb hheld => hholds ⟨b, hb, hheld⟩
      rw [serve, copyTo_of_not_holds hholds, Device.serve, hvisit]
  | copyFrom a len =>
    refine ⟨none, by simp, ?_⟩
    rw [serve, Device.serve]
    cases hvisit : visit a.value len (fun b => b) (h.blocksOf d) with
    | none =>
      have hfind : h.blocks.find? (fun b => b.owner == d.slot && b.holds a.value len) = none := by
        rw [List.find?_eq_none]
        intro b hb hheld
        rw [Bool.and_eq_true, beq_iff_eq] at hheld
        exact visit_eq_none_iff.mp hvisit b (mem_blocksOf.mpr ⟨hb, hheld.1⟩) hheld.2
      rw [copyFrom, load?, hfind]
      rfl
    | some found =>
      obtain ⟨b, after⟩ := found
      obtain ⟨hb, hheld⟩ := visit_some hvisit
      obtain ⟨hmem, howner⟩ := mem_blocksOf.mp hb
      have hload : h.load? (·.owner == d.slot) a len = some (b.read a.value len) :=
        load?_of_mem hmem (beq_iff_eq.mpr howner) hheld
      rw [copyFrom, hload, visit_unchanged hvisit]
      rfl

theorem blocksOf_serve_other (hne : d'.slot ≠ d.slot) (s : DeviceStep) :
    (h.serve d' s).2.blocksOf d = h.blocksOf d := by
  cases s with
  | alloc n =>
    rw [serve]
    cases halloc : h.alloc d' n with
    | error e => rfl
    | ok ah =>
      obtain ⟨a, h'⟩ := ah
      simp only [blocksOf, blocks_alloc halloc]
      exact List.filter_cons_of_neg (by simpa using hne)
  | free a =>
    simp only [serve, blocksOf, free, List.filter_filter]
    apply List.filter_congr
    intro b _
    by_cases howner : b.owner = d.slot
    · simp [howner, hne.symm]
    · simp [howner]
  | copyTo a src =>
    rw [serve, copyTo, store?]
    split_ifs
    · refine blocksOf_map_writeIn.trans ?_
      calc (h.blocksOf d).map (writeIn (·.owner == d'.slot) a src) = (h.blocksOf d).map id := by
            apply List.map_congr_left
            intro b hb
            have hother : (b.owner == d'.slot) = false := by
              rw [(mem_blocksOf.mp hb).2]
              simpa using hne.symm
            rw [writeIn, hother, Bool.false_and]
            rfl
        _ = h.blocksOf d := List.map_id _
    · rfl
  | copyFrom a len => rfl

/-- After operations on any of its devices an empty heap is to each of them a device that was
operated on by what it was asked itself. -/
theorem reached_afterSteps {steps : List (Device × DeviceStep)}
    (hslots : ∀ x ∈ steps, x.1.slot = d.slot → x.1 = d) :
    d.Reached (historyOf {} d steps) ((afterSteps {} steps).blocksOf d) := by
  induction steps with
  | nil => exact .start
  | cons x earlier ih =>
    obtain ⟨d', s⟩ := x
    rw [List.forall_mem_cons] at hslots
    have hearlier := ih hslots.2
    by_cases hsame : d' = d
    · subst hsame
      obtain ⟨place, hplace, hserve⟩ := (afterSteps {} earlier).serve_blocksOf d' s
      have hnext := hearlier.step (List.Perm.refl _) hplace
      rw [hserve] at hnext
      rw [historyOf, if_pos rfl]
      exact hnext
    · have hne : d'.slot ≠ d.slot := fun hslot => hsame (hslots.1 hslot)
      rw [historyOf, if_neg hsame, afterSteps, blocksOf_serve_other hne]
      exact hearlier

/-- An operation on a device of the heap is answered as by a search of its blocks in any order, with
fresh memory apart from them. -/
theorem serve_anyOrder (h : Heap) (s : DeviceStep) {history : List DeviceEvent}
    (hrefines : RefinesArrays d history (h.blocksOf d)) (horder : order.Perm (h.blocksOf d)) :
    ∃ place, (∀ n a, s = .alloc n → place = some a → Placed order n a) ∧
      (d.serve place order s).1 = (h.serve d s).1 ∧
      (d.serve place order s).2.Perm ((h.serve d s).2.blocksOf d) := by
  obtain ⟨place, hplace, hserve⟩ := h.serve_blocksOf d s
  obtain ⟨hanswer, hafter⟩ := hrefines.anyOrder order (h.blocksOf d)
    place s horder (List.Perm.refl _)
  rw [hserve] at hanswer hafter
  refine ⟨place, fun n a hs ha => ?_, hanswer, hafter⟩
  obtain ⟨hspace, hclear⟩ := hplace n a hs ha
  exact ⟨hspace, fun b hb => hclear b (horder.mem_iff.mp hb)⟩

end Heap

/-- A device is a set of independent byte arrays, one for each live allocation: a device whose
allocations are searched in any order, and which finds fresh memory anywhere apart from them, is
answered from its history alone. To each of its devices the heap is such a device, whatever is asked
of the others. -/
theorem device_refines_arrays (d : Device) :
    (∀ history blocks, d.Reached history blocks → RefinesArrays d history blocks) ∧
    ∀ steps : List (Device × DeviceStep), (∀ x ∈ steps, x.1.slot = d.slot → x.1 = d) →
      let h := Heap.afterSteps {} steps
      d.Reached (Heap.historyOf {} d steps) (h.blocksOf d) ∧
      ∀ s order, order.Perm (h.blocksOf d) →
        ∃ place, (∀ n a, s = .alloc n → place = some a → Placed order n a) ∧
          (d.serve place order s).1 = (h.serve d s).1 ∧
          (d.serve place order s).2.Perm ((h.serve d s).2.blocksOf d) := by
  refine ⟨fun history blocks hreached => hreached.refines, fun steps hslots => ?_⟩
  have hreached := Heap.reached_afterSteps hslots
  exact ⟨hreached, fun s order horder =>
    Heap.serve_anyOrder (Heap.afterSteps {} steps) s hreached.refines horder⟩

/-- Three bytes at the end of an allocation of eleven: they are read back behind a zero, an empty
read at the very end succeeds, and the words behind the allocation are not part of it. -/
theorem device_refines_arrays_eleven :
    let d : Device := { slot := 0, id := 0 }
    let base := Address.ofNat firstAddress
    let steps : List (Device × DeviceStep) :=
      [(d, .copyTo (base.advance 8) [1, 2, 3]), (d, .alloc 11)]
    let h := Heap.afterSteps {} steps
    RefinesArrays d (Heap.historyOf {} d steps) (h.blocksOf d) ∧
      (h.serve d (.copyFrom (base.advance 7) 4)).1 = .ok (.bytes [0, 1, 2, 3]) ∧
      (h.serve d (.copyFrom (base.advance 11) 0)).1 = .ok (.bytes []) ∧
      (h.serve d (.copyFrom (base.advance 11) 1)).1 =
        .error (.accessOutsideAllocations (base.advance 11) 1) := by
  intro d base steps h
  obtain ⟨hany, hheap⟩ := device_refines_arrays d
  have hslots : ∀ x ∈ steps, x.1.slot = d.slot → x.1 = d := by simp [steps]
  obtain ⟨hreached, hserve⟩ := hheap steps hslots
  have hrefines := hany _ _ hreached
  have hread : ∀ a len, (h.serve d (.copyFrom a len)).1 =
      if Covers (Heap.historyOf {} d steps) a.value len then
        .ok (.bytes (bytesAt (Heap.historyOf {} d steps) a.value len))
      else .error (.accessOutsideAllocations a len) := by
    intro a len
    obtain ⟨place, -, hanswer, -⟩ := hserve (.copyFrom a len) _ (List.Perm.refl _)
    rw [← hanswer, hrefines.reads _ place a len (List.Perm.refl _)]
  refine ⟨hrefines, ?_, ?_, ?_⟩
  · have hbytes : bytesAt (Heap.historyOf {} d steps) (base.advance 7).value 4 = [0, 1, 2, 3] := by
      decide +kernel
    rw [hread, if_pos (by decide +kernel), hbytes]
  · rw [hread, if_pos (by decide +kernel)]
    rfl
  · rw [hread, if_neg (by decide +kernel)]

end KernelDispatch
