import KernelDispatch.Proofs.Capacity.Words

/-!
# The capacity is the least that reaches its target

The target of a capacity is the exact product of the row count and the multiplier, less half a unit
of the multiplier for each row as long as these units stay below one row. The capacity is the least
number that reaches the target; it is refused only if that number is not a size.
-/

namespace KernelDispatch

/-- What a capacity for `rows` rows has to reach under the multiplier `mantissa * 2 ^ exponent`. -/
def rowTarget (rows mantissa : ℕ) (exponent : ℤ) : ℚ :=
  if (rows : ℚ) * 2 ^ exponent < 1 then
    rows * mantissa * 2 ^ exponent - rows * 2 ^ exponent / 2
  else rows * mantissa * 2 ^ exponent

theorem mantissa_lt_of_decode {bits mantissa : ℕ} {negative : Bool} {exponent : ℤ}
    (h : FloatFormat.double.decode bits = .finite negative mantissa exponent) :
    mantissa < 2 ^ 53 := by
  have hfraction : FloatFormat.double.fractionField bits < 2 ^ 52 := Nat.mod_lt _ (by decide)
  unfold FloatFormat.decode at h
  simp only at h
  split_ifs at h
  · simp only [FloatValue.finite.injEq] at h
    omega
  · simp only [FloatValue.finite.injEq] at h
    obtain ⟨-, rfl, -⟩ := h
    change FloatFormat.double.fractionField bits + 2 ^ 52 < 2 ^ 53
    omega

section Target

variable {rows mantissa c : ℕ} {exponent : ℤ}

theorem rowTarget_le_iff_of_nonneg (h : 0 ≤ exponent) :
    rowTarget rows mantissa exponent ≤ c ↔ rows * mantissa * 2 ^ exponent.toNat ≤ c := by
  obtain ⟨k, rfl⟩ := Int.eq_ofNat_of_zero_le h
  have hunit : (2 : ℚ) ^ ((k : ℕ) : ℤ) = ((2 ^ k : ℕ) : ℚ) := by
    rw [zpow_natCast]
    push_cast
    rfl
  rw [rowTarget, hunit, Int.toNat_natCast]
  split_ifs with hsmall
  · have hzero : rows = 0 := by
      by_contra hne
      have hone : 1 ≤ rows * 2 ^ k := Nat.mul_pos (Nat.pos_of_ne_zero hne) (by positivity)
      have : (1 : ℚ) ≤ (rows : ℚ) * ((2 ^ k : ℕ) : ℚ) := by exact_mod_cast hone
      linarith
    subst hzero
    simp
  · exact_mod_cast Iff.rfl

/-- With a unit below one row the target is compared after clearing the unit. -/
theorem rowTarget_le_iff_of_neg (h : exponent < 0) :
    rowTarget rows mantissa exponent ≤ c ↔
      if rows < 2 ^ (-exponent).toNat then
        2 * (rows * mantissa) ≤ 2 * (c * 2 ^ (-exponent).toNat) + rows
      else rows * mantissa ≤ c * 2 ^ (-exponent).toNat := by
  obtain ⟨k, hk⟩ := Int.eq_ofNat_of_zero_le (show 0 ≤ -exponent by omega)
  obtain rfl : exponent = -(k : ℤ) := by omega
  have hpos : (0 : ℚ) < ((2 ^ k : ℕ) : ℚ) := by positivity
  have hunit : (2 : ℚ) ^ (-(k : ℤ)) = 1 / ((2 ^ k : ℕ) : ℚ) := by
    rw [zpow_neg, zpow_natCast, one_div]
    push_cast
    rfl
  have hbelow : (rows : ℚ) * (1 / ((2 ^ k : ℕ) : ℚ)) < 1 ↔ rows < 2 ^ k := by
    rw [mul_one_div, div_lt_one hpos]
    exact Nat.cast_lt
  rw [rowTarget, hunit, neg_neg, Int.toNat_natCast]
  simp only [hbelow]
  split_ifs with hsmall
  · have hclear : (rows : ℚ) * mantissa * (1 / ((2 ^ k : ℕ) : ℚ)) -
        rows * (1 / ((2 ^ k : ℕ) : ℚ)) / 2 =
        (2 * (rows * mantissa) - rows) / (2 * ((2 ^ k : ℕ) : ℚ)) := by
      field_simp
    rw [hclear, div_le_iff₀ (by positivity), sub_le_iff_le_add]
    have hcast : (c : ℚ) * (2 * ((2 ^ k : ℕ) : ℚ)) + rows = ((2 * (c * 2 ^ k) + rows : ℕ) : ℚ) := by
      push_cast
      ring
    rw [hcast]
    exact_mod_cast Iff.rfl
  · rw [mul_one_div, div_le_iff₀ hpos]
    exact_mod_cast Iff.rfl

/-- Rounding up a quotient, with a remainder spared that is at most half of `slack`. -/
theorem isLeast_quotient (product : ℕ) {slack unit : ℕ} (hslack : slack < unit) :
    IsLeast {c : ℕ | 2 * product ≤ 2 * (c * unit) + slack}
      (if 2 * (product % unit) ≤ slack then product / unit else product / unit + 1) := by
  have hsplit : product = product / unit * unit + product % unit := by
    rw [mul_comm]
    exact (Nat.div_add_mod product unit).symm
  have hrest : product % unit < unit := Nat.mod_lt _ (by omega)
  have hgap (c : ℕ) (hc : c < product / unit) : c * unit + unit ≤ product / unit * unit := by
    rw [← Nat.succ_mul]
    exact Nat.mul_le_mul_right _ hc
  split_ifs with hspared
  · constructor
    · simp only [Set.mem_ofPred_eq]
      omega
    · intro c hc
      simp only [Set.mem_ofPred_eq] at hc
      by_contra hless
      have := hgap c (by omega)
      omega
  · constructor
    · simp only [Set.mem_ofPred_eq, Nat.succ_mul]
      omega
    · intro c hc
      simp only [Set.mem_ofPred_eq] at hc
      by_contra hless
      rcases Nat.lt_or_ge c (product / unit) with hlt | hge
      · have := hgap c hlt
        omega
      · obtain rfl : c = product / unit := by omega
        omega

/-- The exact capacity is the least number that reaches the target. -/
theorem exactRows_isLeast :
    IsLeast {c : ℕ | rowTarget rows mantissa exponent ≤ c} (exactRows rows mantissa exponent) := by
  by_cases hexp : 0 ≤ exponent
  · simp only [rowTarget_le_iff_of_nonneg hexp, exactRows, if_pos hexp]
    exact isLeast_Ici
  · simp only [rowTarget_le_iff_of_neg (not_le.mp hexp), exactRows, if_neg hexp]
    split_ifs with hsmall hspared hspared
    · have hleast := isLeast_quotient (rows * mantissa) hsmall
      rwa [if_pos (by omega)] at hleast
    · have hleast := isLeast_quotient (rows * mantissa) hsmall
      rwa [if_neg (by omega)] at hleast
    · have hleast := isLeast_quotient (rows * mantissa)
        (show 0 < 2 ^ (-exponent).toNat by positivity)
      rw [if_pos (by omega)] at hleast
      simpa only [Nat.add_zero, Nat.mul_le_mul_left_iff (show 0 < 2 by norm_num)] using hleast
    · have hleast := isLeast_quotient (rows * mantissa)
        (show 0 < 2 ^ (-exponent).toNat by positivity)
      rw [if_neg (by omega)] at hleast
      simpa only [Nat.add_zero, Nat.mul_le_mul_left_iff (show 0 < 2 by norm_num)] using hleast

end Target

theorem asSize?_of_lt {n : ℕ} (h : n < sizeBound) : asSize? n = some n := if_pos h

theorem asSize?_eq_none_iff {n : ℕ} : asSize? n = none ↔ sizeBound ≤ n := by
  unfold asSize?
  split_ifs with h
  · simpa using h
  · simpa using h

/-- The capacity under a positive, finite multiplier is its exact value if that is a size. -/
theorem rowCapacity_eq {plan : Plan} {bits : BitVec 64} {rows mantissa : ℕ} {exponent : ℤ}
    (hsizing : plan.sizing = some (.rowMultiplier bits))
    (hvalue : FloatFormat.double.decode bits.toNat = .finite false mantissa exponent)
    (hpositive : 0 < mantissa) (hrows : rows < sizeBound) :
    plan.rowCapacity rows =
      match asSize? (exactRows rows mantissa exponent) with
      | some capacity => .ok capacity
      | none => .error (.capacityTooLarge rows bits) := by
  obtain ⟨k, rfl⟩ := Nat.exists_eq_succ_of_ne_zero hpositive.ne'
  have hscaled := scaleRows?_eq hrows (mantissa_lt_of_decode hvalue) exponent
  unfold Plan.rowCapacity
  rw [hsizing]
  simp only [hvalue]
  change (match scaleRows? rows k.succ exponent with
    | some capacity => Except.ok capacity
    | none => Except.error (Failure.capacityTooLarge rows bits)) = _
  rw [hscaled]

/-- The capacity is the least number that reaches the target. It is refused, as too large, exactly
if that number is not a size. No step of the computation overflows. -/
theorem rowCapacity_least {plan : Plan} {bits : BitVec 64} {rows mantissa : ℕ} {exponent : ℤ}
    (hsizing : plan.sizing = some (.rowMultiplier bits))
    (hvalue : FloatFormat.double.decode bits.toNat = .finite false mantissa exponent)
    (hpositive : 0 < mantissa) (hrows : rows < sizeBound) :
    ∃ c, IsLeast {c : ℕ | rowTarget rows mantissa exponent ≤ c} c ∧
      (c < sizeBound → plan.rowCapacity rows = .ok c) ∧
      (plan.rowCapacity rows = .error (.capacityTooLarge rows bits) ↔ sizeBound ≤ c) ∧
      (Failure.capacityTooLarge rows bits).kind = .config ∧
      (Failure.capacityTooLarge rows bits).report.message = "Output row capacity too large" ∧
      checkedScaleRows? rows mantissa exponent = some (scaleRows? rows mantissa exponent) := by
  have hcapacity := rowCapacity_eq hsizing hvalue hpositive hrows
  refine ⟨exactRows rows mantissa exponent, exactRows_isLeast, ?_, ?_, rfl, rfl,
    checkedScaleRows?_eq hrows (mantissa_lt_of_decode hvalue) exponent⟩
  · intro hsize
    rw [hcapacity, asSize?_of_lt hsize]
  · rw [hcapacity]
    constructor
    · intro herror
      rw [← asSize?_eq_none_iff]
      cases hc : asSize? (exactRows rows mantissa exponent) with
      | none => rfl
      | some capacity => rw [hc] at herror; exact nomatch herror
    · intro hlarge
      rw [asSize?_eq_none_iff.mpr hlarge]

/-- Ten rows under the double nearest to 1.1, which is above it. -/
theorem rowCapacity_least_ten :
    ∃ c, IsLeast {c : ℕ | rowTarget 10 4953959590107546 (-52) ≤ c} c ∧
      (c < sizeBound →
        Plan.rowCapacity ⟨"f", [], [], some (.rowMultiplier 0x3FF199999999999A#64)⟩ 10 = .ok c) ∧
      (Plan.rowCapacity ⟨"f", [], [], some (.rowMultiplier 0x3FF199999999999A#64)⟩ 10 =
        .error (.capacityTooLarge 10 0x3FF199999999999A#64) ↔ sizeBound ≤ c) ∧
      (Failure.capacityTooLarge 10 0x3FF199999999999A#64).kind = .config ∧
      (Failure.capacityTooLarge 10 0x3FF199999999999A#64).report.message =
        "Output row capacity too large" ∧
      checkedScaleRows? 10 4953959590107546 (-52) = some (scaleRows? 10 4953959590107546 (-52)) :=
  rowCapacity_least rfl (by decide) (by decide) (by decide)

end KernelDispatch
