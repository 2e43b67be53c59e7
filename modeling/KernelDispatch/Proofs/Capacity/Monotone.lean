import KernelDispatch.Proofs.Capacity.Rounded

/-!
# More rows or a larger multiplier never need less room

What a target allows for rounding depends on the row count and on the unit of the multiplier, and
ends altogether where these units make up a row. Even so the target grows with both: a larger double
has no smaller unit, and it stays larger when each of the two is lessened by half of its own unit.
The capacity, as the least number that reaches the target, grows with it.
-/

namespace KernelDispatch

/-- A mantissa and an exponent as a double has them: of the 53 bits the highest is set, unless the
unit is the least there is. -/
structure IsDouble (mantissa : ℕ) (exponent : ℤ) : Prop where
  mantissa_lt : mantissa < 2 ^ 53
  least_le : FloatFormat.double.leastExponent ≤ exponent
  normal : FloatFormat.double.leastExponent < exponent → 2 ^ 52 ≤ mantissa

theorem isDouble_of_decode {bits mantissa : ℕ} {negative : Bool} {exponent : ℤ}
    (h : FloatFormat.double.decode bits = .finite negative mantissa exponent) :
    IsDouble mantissa exponent := by
  have hmantissa := mantissa_lt_of_decode h
  unfold FloatFormat.decode at h
  simp only at h
  split_ifs at h with htop hzero hfield
  · simp only [FloatValue.finite.injEq] at h
    obtain ⟨-, -, rfl⟩ := h
    exact ⟨hmantissa, le_rfl, fun hlt => absurd hlt (lt_irrefl _)⟩
  · simp only [FloatValue.finite.injEq] at h
    obtain ⟨-, rfl, rfl⟩ := h
    refine ⟨hmantissa, by omega, fun _ => ?_⟩
    change 2 ^ 52 ≤ FloatFormat.double.fractionField bits + 2 ^ 52
    omega

section Order

variable {rows rows' mantissa mantissa' : ℕ} {exponent exponent' : ℤ}

theorem pow_le_half_pow (h : exponent < exponent') : (2 : ℚ) ^ exponent ≤ 2 ^ exponent' / 2 := by
  have hnext : (2 : ℚ) ^ (exponent + 1) ≤ 2 ^ exponent' := zpow_le_zpow_right₀ (by norm_num) h
  rw [zpow_add_one₀ (by norm_num)] at hnext
  linarith

/-- Of two doubles with different units the one with the larger unit is the larger, even with half
of its unit taken off. -/
theorem value_le_lessened_of_exponent_lt (ha : IsDouble mantissa exponent)
    (hb : IsDouble mantissa' exponent') (h : exponent < exponent') :
    (mantissa : ℚ) * 2 ^ exponent ≤ mantissa' * 2 ^ exponent' - 2 ^ exponent' / 2 := by
  have hunit : (0 : ℚ) < 2 ^ exponent' := by positivity
  have hlow : (mantissa : ℚ) ≤ 2 ^ 53 - 1 := by
    have hle : mantissa + 1 ≤ 2 ^ 53 := ha.mantissa_lt
    have hcast : ((mantissa + 1 : ℕ) : ℚ) ≤ ((2 ^ 53 : ℕ) : ℚ) := Nat.cast_le.mpr hle
    push_cast at hcast
    linarith
  have hhigh : (2 : ℚ) ^ 52 ≤ mantissa' := by exact_mod_cast hb.normal (ha.least_le.trans_lt h)
  calc (mantissa : ℚ) * 2 ^ exponent ≤ (2 ^ 53 - 1) * 2 ^ exponent := by gcongr
    _ ≤ (2 ^ 53 - 1) * (2 ^ exponent' / 2) := by
        gcongr
        exact pow_le_half_pow h
    _ = 2 ^ 52 * 2 ^ exponent' - 2 ^ exponent' / 2 := by ring
    _ ≤ mantissa' * 2 ^ exponent' - 2 ^ exponent' / 2 := by gcongr

theorem exponent_le_of_value_le (ha : IsDouble mantissa exponent)
    (hb : IsDouble mantissa' exponent')
    (h : (mantissa : ℚ) * 2 ^ exponent ≤ mantissa' * 2 ^ exponent') : exponent ≤ exponent' := by
  by_contra hlt
  have hvalue := value_le_lessened_of_exponent_lt hb ha (not_le.mp hlt)
  have hunit : (0 : ℚ) < 2 ^ exponent := by positivity
  linarith

/-- Doubles keep their order when each is lessened by half of its own unit. -/
theorem lessened_le_of_value_le (ha : IsDouble mantissa exponent)
    (hb : IsDouble mantissa' exponent')
    (h : (mantissa : ℚ) * 2 ^ exponent ≤ mantissa' * 2 ^ exponent') :
    (mantissa : ℚ) * 2 ^ exponent - 2 ^ exponent / 2 ≤
      mantissa' * 2 ^ exponent' - 2 ^ exponent' / 2 := by
  have hunit : (0 : ℚ) < 2 ^ exponent := by positivity
  rcases (exponent_le_of_value_le ha hb h).lt_or_eq with hlt | rfl
  · have hvalue := value_le_lessened_of_exponent_lt ha hb hlt
    linarith
  · linarith

theorem half_unit_le (exponent : ℤ) (h : 0 < mantissa) :
    (2 : ℚ) ^ exponent / 2 ≤ mantissa * 2 ^ exponent := by
  have hunit : (0 : ℚ) < 2 ^ exponent := by positivity
  have hone : (1 : ℚ) ≤ mantissa := by exact_mod_cast h
  have hle : 1 * (2 : ℚ) ^ exponent ≤ mantissa * 2 ^ exponent := by gcongr
  linarith

/-- The target grows with the row count and with the multiplier. -/
theorem rowTarget_mono (ha : IsDouble mantissa exponent) (hb : IsDouble mantissa' exponent')
    (hpositive : 0 < mantissa) (hrows : rows ≤ rows')
    (h : (mantissa : ℚ) * 2 ^ exponent ≤ mantissa' * 2 ^ exponent') :
    rowTarget rows mantissa exponent ≤ rowTarget rows' mantissa' exponent' := by
  have hcount : (rows : ℚ) ≤ rows' := Nat.cast_le.mpr hrows
  have hvalue : (0 : ℚ) ≤ mantissa' * 2 ^ exponent' := by positivity
  have hproduct : (rows : ℚ) * mantissa * 2 ^ exponent ≤ rows' * mantissa' * 2 ^ exponent' := by
    rw [mul_assoc, mul_assoc]
    exact mul_le_mul hcount h (by positivity) (Nat.cast_nonneg _)
  by_cases hsmall' : (rows' : ℚ) * 2 ^ exponent' < 1
  · -- The allowance of the larger pair is in force, so that of the smaller one is as well.
    have hsmall : (rows : ℚ) * 2 ^ exponent < 1 := by
      refine lt_of_le_of_lt (mul_le_mul hcount ?_ (by positivity) (Nat.cast_nonneg _)) hsmall'
      exact zpow_le_zpow_right₀ (by norm_num) (exponent_le_of_value_le ha hb h)
    rw [rowTarget_of_small hsmall, rowTarget_of_small hsmall']
    apply mul_le_mul hcount (lessened_le_of_value_le ha hb h) _ (Nat.cast_nonneg _)
    linarith [half_unit_le exponent hpositive]
  · rw [rowTarget, rowTarget, if_neg hsmall']
    split_ifs with hsmall
    · have hallowed : (0 : ℚ) ≤ rows * 2 ^ exponent / 2 := by positivity
      linarith
    · exact hproduct

theorem exactRows_mono (ha : IsDouble mantissa exponent) (hb : IsDouble mantissa' exponent')
    (hpositive : 0 < mantissa) (hrows : rows ≤ rows')
    (h : (mantissa : ℚ) * 2 ^ exponent ≤ mantissa' * 2 ^ exponent') :
    exactRows rows mantissa exponent ≤ exactRows rows' mantissa' exponent' := by
  have hreaches : rowTarget rows' mantissa' exponent' ≤ (exactRows rows' mantissa' exponent' : ℚ) :=
    exactRows_isLeast.1
  exact exactRows_isLeast.2 ((rowTarget_mono ha hb hpositive hrows h).trans hreaches)

end Order

/-- With no fewer rows and no smaller multiplier the capacity is no smaller; where the smaller pair
needs too much, so does the larger one. -/
theorem rowCapacity_mono {plan plan' : Plan} {bits bits' : BitVec 64}
    {rows rows' mantissa mantissa' : ℕ} {exponent exponent' : ℤ}
    (hsizing : plan.sizing = some (.rowMultiplier bits))
    (hsizing' : plan'.sizing = some (.rowMultiplier bits'))
    (hvalue : FloatFormat.double.decode bits.toNat = .finite false mantissa exponent)
    (hvalue' : FloatFormat.double.decode bits'.toNat = .finite false mantissa' exponent')
    (hpositive : 0 < mantissa) (hrows : rows ≤ rows') (hsize : rows' < sizeBound)
    (hmultiplier : (mantissa : ℚ) * 2 ^ exponent ≤ mantissa' * 2 ^ exponent') :
    (∀ c', plan'.rowCapacity rows' = .ok c' → ∃ c ≤ c', plan.rowCapacity rows = .ok c) ∧
      (plan.rowCapacity rows = .error (.capacityTooLarge rows bits) →
        plan'.rowCapacity rows' = .error (.capacityTooLarge rows' bits')) := by
  have hpositive' : 0 < mantissa' := by
    have hless : (0 : ℚ) < mantissa * 2 ^ exponent := by positivity
    refine Nat.pos_of_ne_zero fun hzero => ?_
    rw [hzero, Nat.cast_zero, zero_mul] at hmultiplier
    linarith
  have hmono := exactRows_mono (isDouble_of_decode hvalue) (isDouble_of_decode hvalue') hpositive
    hrows hmultiplier
  rw [rowCapacity_eq hsizing hvalue hpositive (hrows.trans_lt hsize),
    rowCapacity_eq hsizing' hvalue' hpositive' hsize]
  by_cases hfits : exactRows rows' mantissa' exponent' < sizeBound
  · rw [asSize?_of_lt hfits, asSize?_of_lt (hmono.trans_lt hfits)]
    refine ⟨?_, nofun⟩
    rintro c' ⟨⟩
    exact ⟨_, hmono, rfl⟩
  · rw [asSize?_eq_none_iff.mpr (not_lt.mp hfits)]
    exact ⟨nofun, fun _ => rfl⟩

/-- The largest double below two and two itself lie in neighbouring binades, on either side of which
the units differ. -/
theorem rowCapacity_mono_below_two :
    (∀ c', Plan.rowCapacity ⟨"g", [], [], some (.rowMultiplier 0x4000000000000000#64)⟩ 4 = .ok c' →
        ∃ c ≤ c', Plan.rowCapacity ⟨"f", [], [], some (.rowMultiplier 0x3FFFFFFFFFFFFFFF#64)⟩ 3 =
          .ok c) ∧
      (Plan.rowCapacity ⟨"f", [], [], some (.rowMultiplier 0x3FFFFFFFFFFFFFFF#64)⟩ 3 =
          .error (.capacityTooLarge 3 0x3FFFFFFFFFFFFFFF#64) →
        Plan.rowCapacity ⟨"g", [], [], some (.rowMultiplier 0x4000000000000000#64)⟩ 4 =
          .error (.capacityTooLarge 4 0x4000000000000000#64)) := by
  have hbelow : FloatFormat.double.decode (0x3FFFFFFFFFFFFFFF#64).toNat =
      .finite false (2 ^ 53 - 1) (-52) := by decide
  have htwo : FloatFormat.double.decode (0x4000000000000000#64).toNat =
      .finite false (2 ^ 52) (-51) := by decide
  exact rowCapacity_mono rfl rfl hbelow htwo (by decide) (by decide) (by decide) (by norm_num)

end KernelDispatch
