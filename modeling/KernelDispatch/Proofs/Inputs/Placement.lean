import KernelDispatch.Proofs.Inputs

/-!
# Where inputs lie in device memory

On a device every input has a block of its own, in front of the blocks of the inputs before it. The
block holds the bytes of the input and zeros up to a whole word.
-/

namespace KernelDispatch

def Buffer.Starts (b : Buffer) (block : Block) : Prop :=
  ∃ a, b.location = .device a ∧ block.base = a.value

def Block.Keeps (block : Block) (bs : Bytes) : Prop :=
  block.bytes = zeroFilled (max bs.length slotBytes) bs

namespace Inputs

variable {store : ColumnStore} {function : String} {deviceId : DeviceId} {index : ℕ}
  {rows : Option ℕ} {d : Device}

theorem meets_columnPlaced (s₀ : Scope) (ref : ColumnRef) (hsite : s₀.context.site = .device d) :
    Action.Meets (· = s₀) (column store function deviceId index rows ref)
      (fun bn s => ∃ c block, store.look ref .device deviceId = .ok c ∧
        agrees rows c.count = true ∧ bn.2 = c.count ∧
        s.machine.heap.blocks = block :: s₀.machine.heap.blocks ∧ bn.1.Starts block ∧
        block.Keeps c.bytes)
      (fun _ _ => True) := by
  have hlevel : s₀.context.memoryLevel = .device := by
    rw [Context.memoryLevel, Context.deviceType, hsite]
    rfl
  apply Action.meets_read_bind
  rw [hlevel]
  apply (meets_fetch s₀ ref .device).bind fun _ _ _ => trivial
  intro c
  by_cases hagrees : agrees rows c.count = true
  · rw [if_pos hagrees]
    rintro s ⟨m', hlook, ⟨-, d', a, hplace, hblocks⟩, rfl⟩
    obtain ⟨source, place⟩ := c
    subst hplace
    exact ⟨source, _, hlook, hagrees, rfl, hblocks, ⟨a, rfl, rfl⟩, rfl⟩
  · rw [if_neg hagrees]
    exact fun _ _ => trivial

theorem meets_literalPlaced (s₀ : Scope) (value : Scalar) (hsite : s₀.context.site = .device d) :
    Action.Meets (· = s₀) (Scope.literal value)
      (fun b s => ∃ bytes block, value.literalBytes? = some bytes ∧
        s.machine.heap.blocks = block :: s₀.machine.heap.blocks ∧ b.Starts block ∧
        block.Keeps (zeroFilled slotBytes bytes))
      (fun _ _ => True) := by
  rw [Scope.literal]
  cases hbytes : value.literalBytes? with
  | none => exact Action.meets_fail fun _ _ => trivial
  | some bytes =>
    have hlen : bytes.length ≤ slotBytes := Scalar.length_of_literalBytes? hbytes
    have hlength : (zeroFilled slotBytes bytes).length = slotBytes := length_zeroFilled hlen
    apply (Scope.atomic_cell bytes).meets
    · rintro s b s' rfl hrun
      obtain ⟨x, new, hgain, hcell⟩ := Scope.gains_cell hlen hrun
      rw [hsite] at hcell
      cases hcell with
      | device d a =>
        refine ⟨bytes, _, rfl, hgain.blocks, ⟨a, rfl, rfl⟩, ?_⟩
        rw [Block.Keeps, hlength, max_self, zeroFilled_of_length hlength]
    · exact fun _ _ _ _ => trivial

theorem meets_onePlaced (s₀ : Scope) (input : InputExpr) (hsite : s₀.context.site = .device d) :
    Action.Meets (· = s₀) (one store function deviceId index rows input)
      (fun br s => ∃ bytes block,
        forecastOne store function .device deviceId index rows input = .ok (bytes, br.2) ∧
        s.machine.heap.blocks = block :: s₀.machine.heap.blocks ∧ br.1.Starts block ∧
        block.Keeps bytes)
      (fun _ _ => True) := by
  cases input with
  | column ref =>
    apply (meets_columnPlaced s₀ ref hsite).bind fun _ _ h => h
    rintro ⟨b, count⟩
    apply Action.meets_pure
    rintro s ⟨c, block, hlook, hagrees, hcount, hblocks, hstarts, hkeeps⟩
    refine ⟨c.bytes, block, ?_, hblocks, hstarts, hkeeps⟩
    rw [forecastOne, hlook]
    exact (if_pos hagrees).trans (congrArg (fun n => Except.ok (c.bytes, some n)) hcount.symm)
  | constant value =>
    apply (meets_literalPlaced s₀ value hsite).bind fun _ _ h => h
    intro b
    apply Action.meets_pure
    rintro s ⟨bytes, block, hbytes, hblocks, hstarts, hkeeps⟩
    refine ⟨_, block, ?_, hblocks, hstarts, hkeeps⟩
    rw [forecastOne, hbytes]
  | unresolved description => exact Action.meets_fail fun _ _ => trivial

theorem meets_allPlaced (inputs : List InputExpr) (index : ℕ) (rows : Option ℕ) (s₀ : Scope)
    (hsite : s₀.context.site = .device d) :
    Action.Meets (· = s₀) (allFrom store function deviceId index rows inputs)
      (fun r s => ∃ bytes own,
        forecastFrom store function .device deviceId index rows inputs = .ok (bytes, r.rows) ∧
        s.machine.heap.blocks = own.reverse ++ s₀.machine.heap.blocks ∧
        List.Forall₂ Buffer.Starts r.buffers own ∧ List.Forall₂ Block.Keeps own bytes)
      (fun _ _ => True) := by
  induction inputs generalizing index rows s₀ with
  | nil =>
    apply Action.meets_pure
    rintro s rfl
    exact ⟨[], [], rfl, rfl, .nil, .nil⟩
  | cons input rest ih =>
    apply ((meets_one s₀ input).and (meets_onePlaced s₀ input hsite)).bind fun _ _ _ => trivial
    rintro ⟨b, rows₁⟩ s₁ ⟨⟨hgrows, -⟩, bytes, block, hone, hblocks, hstarts, hkeeps⟩
    refine (ih (index + 1) rows₁ s₁ (hgrows.site.trans hsite)).bind (fun _ _ h => h)
      (fun r => Action.meets_pure ?_) s₁ rfl
    rintro s ⟨others, own, hrest, hmore, hstartsAll, hkeepsAll⟩
    refine ⟨bytes :: others, block :: own, ?_, ?_, .cons hstarts hstartsAll, .cons hkeeps hkeepsAll⟩
    · rw [forecastFrom, hone]
      change (forecastFrom _ _ _ _ _ _ _ >>= _) = _
      rw [hrest]
      rfl
    · rw [hmore, hblocks, List.reverse_cons, List.append_assoc, List.singleton_append]

end Inputs

end KernelDispatch
