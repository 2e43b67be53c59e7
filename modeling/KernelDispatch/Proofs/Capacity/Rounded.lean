import KernelDispatch.Proofs.Capacity.Least

/-!
# Whole products behind a rounded multiplier

A multiplier is the binary number nearest to the one that was meant. As long as its units stay below
one row in all, a meant product that is a whole number is the capacity itself: what the target
allows for is all that the multiplier can be too large by, and what it can be too small by falls
short of a row.
-/

namespace KernelDispatch

/-- The number that was meant is within half a unit of `mantissa * 2 ^ exponent`. -/
def RoundsTo (meant : ℚ) (mantissa : ℕ) (exponent : ℤ) : Prop :=
  |meant - mantissa * 2 ^ exponent| ≤ 2 ^ exponent / 2

section Rounded

variable {rows mantissa k : ℕ} {exponent : ℤ} {meant : ℚ}

theorem rowTarget_of_small (hsmall : (rows : ℚ) * 2 ^ exponent < 1) :
    rowTarget rows mantissa exponent = rows * (mantissa * 2 ^ exponent - 2 ^ exponent / 2) := by
  rw [rowTarget, if_pos hsmall]
  ring

theorem rowTarget_le_of_roundsTo (hmeant : RoundsTo meant mantissa exponent)
    (hsmall : (rows : ℚ) * 2 ^ exponent < 1) :
    rowTarget rows mantissa exponent ≤ rows * meant := by
  have hbelow := (abs_le.mp hmeant).1
  rw [rowTarget_of_small hsmall]
  apply mul_le_mul_of_nonneg_left _ (Nat.cast_nonneg rows)
  linarith

/-- A multiplier that was rounded down leaves the target less than a row below the meant product. -/
theorem lt_rowTarget_add_one_of_roundsTo (hmeant : RoundsTo meant mantissa exponent)
    (hsmall : (rows : ℚ) * 2 ^ exponent < 1) :
    rows * meant < rowTarget rows mantissa exponent + 1 := by
  have habove : meant ≤ mantissa * 2 ^ exponent + 2 ^ exponent / 2 := by
    linarith [(abs_le.mp hmeant).2]
  calc (rows : ℚ) * meant ≤ rows * (mantissa * 2 ^ exponent + 2 ^ exponent / 2) :=
        mul_le_mul_of_nonneg_left habove (Nat.cast_nonneg rows)
    _ = rowTarget rows mantissa exponent + rows * 2 ^ exponent := by
        rw [rowTarget_of_small hsmall]
        ring
    _ < rowTarget rows mantissa exponent + 1 := by linarith

/-- A meant product that is a whole number is the least that reaches the target. -/
theorem exactRows_of_roundsTo (hmeant : RoundsTo meant mantissa exponent)
    (hsmall : (rows : ℚ) * 2 ^ exponent < 1) (hwhole : rows * meant = k) :
    exactRows rows mantissa exponent = k := by
  have hreaches : rowTarget rows mantissa exponent ≤ k :=
    hwhole ▸ rowTarget_le_of_roundsTo hmeant hsmall
  have hshort : (k : ℚ) < rowTarget rows mantissa exponent + 1 :=
    hwhole ▸ lt_rowTarget_add_one_of_roundsTo hmeant hsmall
  refine exactRows_isLeast.unique ⟨hreaches, ?_⟩
  intro c hc
  have hreached : rowTarget rows mantissa exponent ≤ c := hc
  have hnext : (k : ℚ) < c + 1 := by linarith
  exact Nat.lt_succ_iff.mp (by exact_mod_cast hnext)

/-- With units below one row in all, a whole product is no larger than the mantissa. -/
theorem le_mantissa_of_roundsTo (hmeant : RoundsTo meant mantissa exponent)
    (hsmall : (rows : ℚ) * 2 ^ exponent < 1) (hwhole : rows * meant = k) : k ≤ mantissa := by
  have hunit : (0 : ℚ) < 2 ^ exponent := by positivity
  have htarget : rowTarget rows mantissa exponent ≤ mantissa := by
    calc rowTarget rows mantissa exponent
        = rows * 2 ^ exponent * mantissa - rows * 2 ^ exponent / 2 := by
          rw [rowTarget_of_small hsmall]
          ring
      _ ≤ rows * 2 ^ exponent * mantissa := by
          have : (0 : ℚ) ≤ rows * 2 ^ exponent := by positivity
          linarith
      _ ≤ mantissa := mul_le_of_le_one_left (Nat.cast_nonneg _) hsmall.le
  have hshort : (k : ℚ) < rowTarget rows mantissa exponent + 1 :=
    hwhole ▸ lt_rowTarget_add_one_of_roundsTo hmeant hsmall
  have hnext : (k : ℚ) < mantissa + 1 := by linarith
  exact Nat.lt_succ_iff.mp (by exact_mod_cast hnext)

end Rounded

/-- A capacity is exactly the whole number of rows that was meant, however the multiplier was
rounded, as long as the units of the multiplier stay below one row in all. -/
theorem rowCapacity_of_whole_product {plan : Plan} {bits : BitVec 64} {rows mantissa k : ℕ}
    {exponent : ℤ} {meant : ℚ} (hsizing : plan.sizing = some (.rowMultiplier bits))
    (hvalue : FloatFormat.double.decode bits.toNat = .finite false mantissa exponent)
    (hpositive : 0 < mantissa) (hrows : rows < sizeBound)
    (hmeant : RoundsTo meant mantissa exponent) (hsmall : (rows : ℚ) * 2 ^ exponent < 1)
    (hwhole : rows * meant = k) : plan.rowCapacity rows = .ok k := by
  have hmantissa := mantissa_lt_of_decode hvalue
  have hk := le_mantissa_of_roundsTo hmeant hsmall hwhole
  have hsize : k < sizeBound := by
    rw [sizeBound_eq]
    omega
  rw [rowCapacity_eq hsizing hvalue hpositive hrows, exactRows_of_roundsTo hmeant hsmall hwhole,
    asSize?_of_lt hsize]

/-- The double nearest to 1.1 lies above it, and the one nearest to a third lies below. -/
theorem rowCapacity_of_whole_product_eleven :
    (RoundsTo (11 / 10) 4953959590107546 (-52) ∧
      Plan.rowCapacity ⟨"f", [], [], some (.rowMultiplier 0x3FF199999999999A#64)⟩ 10 = .ok 11) ∧
    RoundsTo (1 / 3) 6004799503160661 (-54) ∧
      Plan.rowCapacity ⟨"f", [], [], some (.rowMultiplier 0x3FD5555555555555#64)⟩ 3 = .ok 1 := by
  have hup : RoundsTo (11 / 10) 4953959590107546 (-52) := by
    rw [RoundsTo, abs_le]
    norm_num
  have hdown : RoundsTo (1 / 3) 6004799503160661 (-54) := by
    rw [RoundsTo, abs_le]
    norm_num
  refine ⟨⟨hup, ?_⟩, hdown, ?_⟩
  · exact rowCapacity_of_whole_product rfl (by decide) (by decide) (by decide) hup (by norm_num)
      (by norm_num)
  · exact rowCapacity_of_whole_product rfl (by decide) (by decide) (by decide) hdown (by norm_num)
      (by norm_num)

end KernelDispatch
