import KernelDispatch.Proofs.Context.Acquire

/-!
# Cells

A cell is one word of a context: a host buffer that is found by its position, or a block of a
device. It shows the bytes that it was made for and zeros behind them. Making one fails only if the
word is refused.
-/

namespace KernelDispatch

/-- The buffer of a cell with these bytes in a context at a site, behind `position` others; what the
context holds for it, and the block that it takes. -/
inductive Buffer.IsCell (position : ℕ) (bytes : Bytes) :
    Site → Buffer → Allocation → List Block → Prop
  | host : IsCell position bytes .host ⟨.held position, slotBytes⟩
      (.host ((HostBuffer.zeroed slotBytes).write 0 bytes)) []
  | device (d : Device) (a : Address) : IsCell position bytes (.device d) ⟨.device a, slotBytes⟩
      (.device a slotBytes) [⟨d.slot, a.value, zeroFilled slotBytes bytes⟩]

namespace Scope

variable {s s' : Scope} {b : Buffer} {bytes : Bytes}

theorem contents_cell (h : bytes.length ≤ slotBytes) :
    ((HostBuffer.zeroed slotBytes).write 0 bytes).contents.take slotBytes =
      zeroFilled slotBytes bytes := by
  change ((overwrite (List.replicate slotBytes 0) 0 bytes).take slotBytes).take slotBytes = _
  rw [overwrite_zeros h, List.take_take, Nat.min_self,
    List.take_of_length_le (length_zeroFilled h).le]

theorem run_cell (hlen : bytes.length ≤ slotBytes) : (cell bytes).run s =
    (match s.context.site with
      | .host => allocHost slotBytes bytes >>= fun _ =>
        pure ⟨.held s.context.allocations.length, slotBytes⟩
      | .device _ => allocDeviceWith slotBytes bytes >>= fun a =>
        pure ⟨.device a, slotBytes⟩ : Action Scope Buffer).run s := by
  rw [cell, if_neg hlen.not_gt]
  rfl

theorem gains_cell (hlen : bytes.length ≤ slotBytes) (h : (cell bytes).run s = (.ok b, s')) :
    ∃ a new, s.Gains a new s' ∧
      b.IsCell s.context.allocations.length bytes s.context.site a new := by
  rw [run_cell hlen] at h
  cases hsite : s.context.site with
  | host =>
    simp only [hsite] at h
    obtain ⟨buffer, s₁, halloc, hpure⟩ := Action.run_bind_eq_ok_iff.mp h
    cases hpure
    obtain ⟨hgain, rfl⟩ := allocHost_ok halloc
    exact ⟨_, _, hgain, .host⟩
  | device d =>
    simp only [hsite] at h
    obtain ⟨a, s₁, halloc, hpure⟩ := Action.run_bind_eq_ok_iff.mp h
    cases hpure
    exact ⟨_, _, allocDeviceWith_ok hsite halloc, .device d a⟩

theorem Gains.offers_cell {a : Allocation} {new : List Block} (hlen : bytes.length ≤ slotBytes)
    (hgain : s.Gains a new s')
    (hcell : b.IsCell s.context.allocations.length bytes s.context.site a new) :
    s'.Offers b (zeroFilled slotBytes bytes) := by
  unfold Offers
  rw [length_zeroFilled hlen, hgain.context, Context.site_hold]
  generalize s.context.site = site at hcell
  cases hcell with
  | host =>
    refine ⟨rfl, ?_, ?_⟩
    · rw [Context.hold, List.length_append]
      exact Nat.lt_succ_self _
    · simp only [load, hgain.context, Context.hold, List.getElem?_concat_length, contents_cell hlen]
  | device d a =>
    exact ⟨rfl, _, by rw [hgain.blocks]; exact List.mem_cons_self, rfl, List.prefix_refl _⟩

theorem cell_ok (hlen : bytes.length ≤ slotBytes) (h : (cell bytes).run s = (.ok b, s')) :
    s.Grows s' ∧ s'.Offers b (zeroFilled slotBytes bytes) := by
  obtain ⟨a, new, hgain, hcell⟩ := gains_cell hlen h
  exact ⟨hgain.grows, hgain.offers_cell hlen hcell⟩

/-- A cell that is not made is refused, and leaves everything as it was. -/
theorem cell_error {e : Failure} (hlen : bytes.length ≤ slotBytes)
    (h : (cell bytes).run s = (.error e, s')) : s' = s ∧ e.isRefusal = true := by
  rw [run_cell hlen] at h
  cases hsite : s.context.site with
  | host =>
    simp only [hsite] at h
    rcases Action.run_bind_eq_error_iff.mp h with halloc | ⟨buffer, s₁, -, hpure⟩
    · refine ⟨atomic_allocHost _ _ _ _ _ halloc, ?_⟩
      exact (allocHost_failure halloc).resolve_right fun hlarge => absurd hlarge.1 (by decide)
    · cases hpure
  | device d =>
    simp only [hsite] at h
    rcases Action.run_bind_eq_error_iff.mp h with halloc | ⟨a, s₁, -, hpure⟩
    · exact ⟨atomic_allocDeviceWith _ _ _ _ _ halloc, allocDeviceWith_error hsite hlen halloc⟩
    · cases hpure

theorem atomic_cell (bytes : Bytes) : (cell bytes).Atomic := by
  intro s e s' h
  rcases Nat.lt_or_ge slotBytes bytes.length with hlong | hlen
  · rw [cell, if_pos hlong] at h
    exact Action.atomic_fail _ _ _ _ h
  · exact (cell_error hlen h).1

theorem atomic_literal (v : Scalar) : (literal v).Atomic := by
  rw [literal]
  split
  · exact atomic_cell _
  · exact Action.atomic_fail _

end Scope

end KernelDispatch
