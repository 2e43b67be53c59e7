import KernelDispatch.Proofs.Device.Search

/-!
# Device memory as independent byte arrays

Each live allocation of a device is an array of its own, of the requested size: accesses within one
array succeed and show what was last written there, all others fail. This holds whatever the order
in which the allocations are searched and wherever fresh memory is found, as long as it is apart
from the live allocations.
-/

namespace KernelDispatch

open DeviceHistory

variable {d : Device} {history older newer : List DeviceEvent} {blocks order after : List Block}
  {place : Option Address} {s : DeviceStep} {a : Address} {n len : ℕ} {src : Bytes} {e : Failure}

namespace Device

theorem serve_alloc (d : Device) (place : Option Address) (order : List Block) (n : ℕ) :
    (∃ a, place = some a ∧ d.serve place order (.alloc n) =
        (.ok (.address a), ⟨d.slot, a.value, List.replicate n 0⟩ :: order)) ∨
      d.serve place order (.alloc n) = (.error (.outOfDeviceMemory d.id n), order) := by
  cases place with
  | none => exact Or.inr rfl
  | some a =>
    by_cases hadmits : d.maxLive.all (order.length < ·) = true
    · exact Or.inl ⟨a, rfl, if_pos hadmits⟩
    · exact Or.inr (if_neg hadmits)

end Device

namespace DeviceHistory.Tracks

/-- A read succeeds exactly where a live allocation covers it, and shows what was last written. -/
theorem serve_copyFrom (h : Tracks d history order) :
    d.serve place order (.copyFrom a len) =
      (if Covers history a.value len then .ok (.bytes (bytesAt history a.value len))
        else .error (.accessOutsideAllocations a len), order) := by
  rw [Device.serve]
  cases hvisit : visit a.value len (fun b => b) order with
  | none =>
    have hnone : ¬Covers history a.value len := by
      rw [← h.holds_iff_covers]
      rintro ⟨b, hb, hholds⟩
      exact visit_eq_none_iff.mp hvisit b hb hholds
    simp only [if_neg hnone]
  | some found =>
    obtain ⟨b, after⟩ := found
    obtain ⟨hb, hholds⟩ := visit_some hvisit
    have hcovers : Covers history a.value len := h.holds_iff_covers.mp ⟨b, hb, hholds⟩
    simp only [if_pos hcovers, h.read_eq hb hholds, visit_unchanged hvisit]

theorem serve_copyTo (h : Tracks d history order) :
    d.serve place order (.copyTo a src) =
      if Covers history a.value src.length then
        (.ok .done, order.map (·.patched a.value src))
      else (.error (.accessOutsideAllocations a src.length), order) := by
  rw [Device.serve]
  cases hvisit : visit a.value src.length (·.write a.value src) order with
  | none =>
    have hnone : ¬Covers history a.value src.length := by
      rw [← h.holds_iff_covers]
      rintro ⟨b, hb, hholds⟩
      exact visit_eq_none_iff.mp hvisit b hb hholds
    simp only [if_neg hnone]
  | some found =>
    obtain ⟨b, after⟩ := found
    obtain ⟨hb, hholds⟩ := visit_some hvisit
    have hcovers : Covers history a.value src.length := h.holds_iff_covers.mp ⟨b, hb, hholds⟩
    simp only [if_pos hcovers, visit_write h.pairwise hvisit]

theorem idle (h : Tracks d older order) (hlive : live newer = live older)
    (hbytes : ∀ x, byteAt newer x = byteAt older x) : Tracks d newer order where
  arrays := by
    rw [arrays_congr hlive hbytes]
    exact h.arrays
  apart := by
    rw [hlive]
    exact h.apart

theorem patched {answer : DeviceAnswer} (h : Tracks d history order) :
    Tracks d ((.copyTo a src, .ok answer) :: history) (order.map (·.patched a.value src)) where
  arrays := by
    rw [arrays_copyTo]
    exact h.arrays.map _
  apart := h.apart

/-- Every operation keeps the arrays of the live allocations, and keeps these apart. -/
theorem serve (h : Tracks d history order)
    (hplace : ∀ n a, s = .alloc n → place = some a → Placed order n a) :
    Tracks d ((s, (d.serve place order s).1) :: history) (d.serve place order s).2 := by
  cases s with
  | alloc n =>
    rcases d.serve_alloc place order n with ⟨a, ha, hgranted⟩ | hrefused
    · have hapart : ∀ r ∈ live history, Apart (a.value, n) r := by
        intro r hr
        have hclear := (hplace n a rfl ha).2 _ (h.arrayOf_mem hr)
        simpa [Apart, arrayOf] using hclear
      rw [hgranted]
      refine ⟨?_, List.pairwise_cons.mpr ⟨hapart, h.apart⟩⟩
      rw [arrays_alloc hapart]
      exact h.arrays.cons _
    · rw [hrefused]
      exact h.idle rfl fun _ => rfl
  | free a =>
    refine ⟨?_, h.apart.filter _⟩
    rw [arrays_free]
    exact h.arrays.filter _
  | copyTo a src =>
    rw [h.serve_copyTo]
    split_ifs
    · exact h.patched
    · exact h.idle rfl fun _ => rfl
  | copyFrom a len =>
    rw [h.serve_copyFrom]
    exact h.idle rfl fun _ => rfl

end DeviceHistory.Tracks

namespace Device.Reached

theorem tracks (h : d.Reached history blocks) : Tracks d history blocks := by
  induction h with
  | start => exact ⟨List.Perm.refl _, List.Pairwise.nil⟩
  | step _ horder hplace ih => exact (ih.perm horder).serve hplace

theorem earlier (h : d.Reached (newer ++ older) blocks) : ∃ before, d.Reached older before := by
  induction newer generalizing blocks with
  | nil => exact ⟨blocks, h⟩
  | cons event newer ih =>
    rw [List.cons_append] at h
    cases h with
    | step h _ _ => exact ih h

end Device.Reached

namespace DeviceHistory

/-- An operation grants no memory at an address. -/
def GrantsNot (x : ℕ) (event : DeviceEvent) : Prop :=
  ∀ n a, event = (.alloc n, .ok (.address a)) → ¬(a.value ≤ x ∧ x < a.value + n)

theorem mem_live_cons {event : DeviceEvent} {r : ℕ × ℕ} {x : ℕ} (hevent : GrantsNot x event)
    (hx : r.1 ≤ x ∧ x < r.1 + r.2) (hr : r ∈ live (event :: history)) : r ∈ live history := by
  obtain ⟨s, answer⟩ := event
  cases s with
  | alloc n =>
    cases answer with
    | error e => exact hr
    | ok answer =>
      cases answer with
      | address a =>
        rcases List.mem_cons.mp hr with rfl | hold
        · exact absurd hx (hevent n a rfl)
        · exact hold
      | done => exact hr
      | bytes bs => exact hr
  | free a => exact List.mem_of_mem_filter hr
  | copyTo a src => exact hr
  | copyFrom a len => exact hr

/-- A byte of a freed allocation is in no live one until one is granted there. -/
theorem not_live_of_freed {answer : Except Failure DeviceAnswer} {r : ℕ × ℕ} {x : ℕ}
    (hapart : (live older).Pairwise Apart) (hfreed : (a.value, n) ∈ live older)
    (hx : a.value ≤ x ∧ x < a.value + n) (hnewer : ∀ event ∈ newer, GrantsNot x event)
    (hr : r ∈ live (newer ++ (.free a, answer) :: older)) : ¬(r.1 ≤ x ∧ x < r.1 + r.2) := by
  intro hrx
  induction newer with
  | nil =>
    rw [List.nil_append, live, List.mem_filter] at hr
    have hne : (a.value, n) ≠ r := by
      rintro rfl
      simp at hr
    have : Std.Symm Apart := ⟨fun _ _ => Apart.symm⟩
    exact (hapart.forall hfreed hr.1 hne).not_mem hx.1 hx.2 hrx
  | cons event newer ih =>
    rw [List.forall_mem_cons] at hnewer
    exact ih hnewer.2 (mem_live_cons hnewer.1 hrx hr)

theorem perm_free (h : Tracks d history order) (hlive : (a.value, n) ∈ live history) :
    order.Perm (arrayOf d history (a.value, n) :: order.filter (·.base != a.value)) := by
  obtain ⟨before, behind, rfl⟩ := List.append_of_mem (h.arrayOf_mem hlive)
  have hbases := h.pairwise.imp Apart.base_ne
  simp only [place_arrayOf, List.pairwise_append, List.pairwise_cons] at hbases
  obtain ⟨-, ⟨hbehind, -⟩, hbefore⟩ := hbases
  have hkept : ∀ c ∈ before ++ behind, (c.base != a.value) = true := by
    intro c hc
    rw [bne_iff_ne]
    rcases List.mem_append.mp hc with hold | hnew
    · exact hbefore c hold _ List.mem_cons_self
    · exact (hbehind c hnew).symm
  have hfreed : ¬((arrayOf d history (a.value, n)).base != a.value) = true := by simp [arrayOf]
  rw [List.filter_append, List.filter_cons_of_neg (p := fun b : Block => b.base != a.value) hfreed,
    ← List.filter_append, List.filter_eq_self.mpr hkept]
  exact List.perm_middle

end DeviceHistory

/-- After a history a device is no more than its arrays: what is asked of it is answered from the
history alone, in whatever order its blocks are searched. -/
structure RefinesArrays (d : Device) (history : List DeviceEvent) (blocks : List Block) : Prop where
  /-- The blocks are the arrays of the live allocations, each of its requested size. -/
  arrays : blocks.Perm (arrays d history)
  /-- No two live allocations have memory in common. -/
  apart : (live history).Pairwise Apart
  /-- A read succeeds exactly within one live allocation, and shows what was last written there. -/
  reads : ∀ (order : List Block) (place : Option Address) (a : Address) (len : ℕ),
    order.Perm blocks → d.serve place order (.copyFrom a len) =
      (if Covers history a.value len then .ok (.bytes (bytesAt history a.value len))
        else .error (.accessOutsideAllocations a len), order)
  /-- A write succeeds exactly within one live allocation, and changes no bytes but those
  written. -/
  writes : ∀ (order : List Block) (place : Option Address) (a : Address) (src : Bytes),
    order.Perm blocks → d.serve place order (.copyTo a src) =
      if Covers history a.value src.length then (.ok .done, order.map (·.patched a.value src))
      else (.error (.accessOutsideAllocations a src.length), order)
  /-- Every operation turns the arrays into those of the longer history. -/
  steps : ∀ (order : List Block) (place : Option Address) (s : DeviceStep), order.Perm blocks →
    (∀ n a, s = .alloc n → place = some a → Placed order n a) →
    (d.serve place order s).2.Perm
      (DeviceHistory.arrays d ((s, (d.serve place order s).1) :: history))
  /-- What fails, and what frees no live allocation, changes nothing. -/
  idle : ∀ (order : List Block) (place : Option Address) (s : DeviceStep), order.Perm blocks →
    ((∃ e, (d.serve place order s).1 = .error e) ∨
      ∃ a : Address, s = .free a ∧ ∀ n, (a.value, n) ∉ live history) →
    (d.serve place order s).2 = order
  /-- Freeing a live allocation takes out that one. -/
  frees : ∀ (order : List Block) (place : Option Address) (a : Address) (n : ℕ), order.Perm blocks →
    (a.value, n) ∈ live history →
    order.Perm (arrayOf d history (a.value, n) :: (d.serve place order (.free a)).2)
  /-- The bytes of a freed allocation cannot be accessed until memory is granted there again. -/
  freed : ∀ (newer older : List DeviceEvent) (a : Address) (answer : Except Failure DeviceAnswer)
    (n x address len : ℕ), history = newer ++ (.free a, answer) :: older →
    (a.value, n) ∈ live older → a.value ≤ x ∧ x < a.value + n →
    (∀ event ∈ newer, GrantsNot x event) → address ≤ x ∧ x < address + len →
    ¬Covers history address len
  /-- The order in which the blocks are searched shows in no answer. -/
  anyOrder : ∀ (order order' : List Block) (place : Option Address) (s : DeviceStep),
    order.Perm blocks → order'.Perm blocks →
    (d.serve place order s).1 = (d.serve place order' s).1 ∧
      (d.serve place order s).2.Perm (d.serve place order' s).2

theorem Device.serve_answer_perm {order' : List Block} (h : Tracks d history order)
    (hperm : order'.Perm order) (place : Option Address) (s : DeviceStep) :
    (d.serve place order' s).1 = (d.serve place order s).1 ∧
      (d.serve place order' s).2.Perm (d.serve place order s).2 := by
  have h' := h.perm hperm
  cases s with
  | alloc n =>
    cases place with
    | none => exact ⟨rfl, hperm⟩
    | some a =>
      simp only [serve, hperm.length_eq]
      split_ifs
      · exact ⟨rfl, hperm.cons _⟩
      · exact ⟨rfl, hperm⟩
  | free a => exact ⟨rfl, hperm.filter _⟩
  | copyTo a src =>
    rw [h.serve_copyTo, h'.serve_copyTo]
    split_ifs
    · exact ⟨rfl, hperm.map _⟩
    · exact ⟨rfl, hperm⟩
  | copyFrom a len =>
    rw [h.serve_copyFrom, h'.serve_copyFrom]
    exact ⟨rfl, hperm⟩

theorem Device.serve_idle (h : Tracks d history order)
    (hidle : (∃ e, (d.serve place order s).1 = .error e) ∨
      ∃ a, s = .free a ∧ ∀ n, (a.value, n) ∉ live history) :
    (d.serve place order s).2 = order := by
  cases s with
  | alloc n =>
    rcases d.serve_alloc place order n with ⟨a, -, hgranted⟩ | hrefused
    · rw [hgranted] at hidle
      rcases hidle with ⟨e, he⟩ | ⟨a, ha, -⟩
      · cases he
      · cases ha
    · rw [hrefused]
  | free a =>
    rcases hidle with ⟨e, he⟩ | ⟨a', ha, hnone⟩
    · cases he
    · cases ha
      refine List.filter_eq_self.mpr fun b hb => ?_
      rw [bne_iff_ne]
      intro hbase
      have hlive := h.place_mem hb
      rw [Block.place, hbase] at hlive
      exact hnone _ hlive
  | copyTo a src =>
    rw [h.serve_copyTo] at hidle ⊢
    split_ifs at hidle ⊢ with hcovers
    · rcases hidle with ⟨e, he⟩ | ⟨a, ha, -⟩
      · cases he
      · cases ha
    · rfl
  | copyFrom a len => rw [h.serve_copyFrom]

theorem Device.Reached.refines (h : d.Reached history blocks) : RefinesArrays d history blocks where
  arrays := h.tracks.arrays
  apart := h.tracks.apart
  reads := fun order place a len horder => (h.tracks.perm horder).serve_copyFrom
  writes := fun order place a src horder => (h.tracks.perm horder).serve_copyTo
  steps := fun order place s horder hplace => ((h.tracks.perm horder).serve hplace).arrays
  idle := fun order place s horder hidle => Device.serve_idle (h.tracks.perm horder) hidle
  frees := fun order place a n horder hlive => perm_free (h.tracks.perm horder) hlive
  freed := by
    rintro newer older a answer n x address len rfl hlive hx hnewer haccess ⟨r, hr, hcovers⟩
    obtain ⟨before, hbefore⟩ := h.earlier
    cases hbefore with
    | step hreached _ _ =>
      exact not_live_of_freed hreached.tracks.apart hlive hx hnewer hr ⟨by omega, by omega⟩
  anyOrder := by
    intro order order' place s horder horder'
    exact Device.serve_answer_perm (h.tracks.perm horder') (horder.trans horder'.symm) place s

end KernelDispatch
