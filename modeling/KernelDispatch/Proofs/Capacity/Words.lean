import KernelDispatch.Capacity
import Mathlib

/-!
# The scaling of rows in exact numbers

Row counts are scaled in words of 128 bits. Here the words are traded for natural numbers: the
product fits, the split into whole rows and a remainder is division with remainder, and the answer
is a closed expression. A second form of the scaling checks every step, so that an overflow or a
shift by the width of the word would show; it never does.
-/

namespace KernelDispatch

def wideBound : ℕ := 2 ^ 128

theorem sizeBound_eq : sizeBound = 2 ^ 64 := rfl

namespace WideWord

def mul? (a b : WideWord) : Option WideWord :=
  if a.toNat * b.toNat < wideBound then some (a * b) else none

def add? (a b : WideWord) : Option WideWord :=
  if a.toNat + b.toNat < wideBound then some (a + b) else none

def sub? (a b : WideWord) : Option WideWord :=
  if b.toNat ≤ a.toNat then some (a - b) else none

/-- The word shifted up, if the amount is below the width and no bit is lost. -/
def shiftUp? (a : WideWord) (n : ℕ) : Option WideWord :=
  if n < 128 ∧ a.toNat * 2 ^ n < wideBound then some (a <<< n) else none

/-- The word shifted down, if the amount is below the width. -/
def shiftDown? (a : WideWord) (n : ℕ) : Option WideWord :=
  if n < 128 then some (a >>> n) else none

theorem toNat_shiftUp {a : WideWord} {n : ℕ} (h : a.toNat * 2 ^ n < wideBound) :
    (a <<< n).toNat = a.toNat * 2 ^ n := by
  rw [BitVec.toNat_shiftLeft, Nat.shiftLeft_eq]
  exact Nat.mod_eq_of_lt h

theorem toNat_oneShiftUp {n : ℕ} (h : n < 128) : ((1 : WideWord) <<< n).toNat = 2 ^ n := by
  have hfits : (1 : WideWord).toNat * 2 ^ n < wideBound := by
    change 1 * 2 ^ n < 2 ^ 128
    rw [one_mul]
    exact Nat.pow_lt_pow_right (by norm_num) h
  rw [toNat_shiftUp hfits]
  exact one_mul _

theorem toNat_mask {n : ℕ} (h : n < 128) : (((1 : WideWord) <<< n) - 1).toNat = 2 ^ n - 1 := by
  have hone : (1 : WideWord).toNat ≤ ((1 : WideWord) <<< n).toNat := by
    rw [toNat_oneShiftUp h]
    exact Nat.one_le_two_pow
  rw [BitVec.toNat_sub_of_le hone, toNat_oneShiftUp h]
  rfl

end WideWord

open WideWord

/-- The two halves of `wholeRows` with every step checked. -/
def checkedWholeRows? (product : WideWord) (shift : ℕ) : Option (WideWord × WideWord) :=
  if 128 ≤ shift then some (0, product)
  else do
    let whole ← shiftDown? product shift
    let mask ← sub? (← shiftUp? 1 shift) 1
    return (whole, product &&& mask)

def checkedDueToRounding? (rows rest : WideWord) (shift : ℕ) : Option Bool :=
  if 128 ≤ shift then (mul? 2 rest).map fun twice => decide (twice ≤ rows)
  else do
    let unit ← shiftUp? 1 shift
    if rows < unit then (mul? 2 rest).map fun twice => decide (twice ≤ rows) else some false

def checkedRoundUpRows? (rows product : WideWord) (shift : ℕ) : Option WideWord := do
  let (whole, rest) ← checkedWholeRows? product shift
  let spared ← checkedDueToRounding? rows rest shift
  if rest = 0 || spared then return whole else add? whole 1

/-- `scaleRows?` with every step checked: none as soon as a product, a sum, a difference or a shift
leaves the word. -/
def checkedScaleRows? (rows mantissa : ℕ) (exponent : ℤ) : Option (Option ℕ) := do
  let rows := BitVec.ofNat 128 rows
  let product ← mul? rows (BitVec.ofNat 128 mantissa)
  if product = 0 then return some 0
  else if 0 ≤ exponent then
    if product.toNat.log2 + exponent.toNat < 128 then
      return asSize? (← shiftUp? product exponent.toNat).toNat
    else return none
  else return asSize? (← checkedRoundUpRows? rows product (-exponent).toNat).toNat

/-- Rows of the capacity, in exact arithmetic. -/
def exactRows (rows mantissa : ℕ) (exponent : ℤ) : ℕ :=
  if 0 ≤ exponent then rows * mantissa * 2 ^ exponent.toNat
  else
    let unit := 2 ^ (-exponent).toNat
    let rest := rows * mantissa % unit
    if rest = 0 ∨ (rows < unit ∧ 2 * rest ≤ rows) then rows * mantissa / unit
    else rows * mantissa / unit + 1

section Split

variable {product : WideWord} {shift : ℕ}

theorem toNat_wholeRows (shift : ℕ) (h : product.toNat < 2 ^ 117) :
    (wholeRows product shift).1.toNat = product.toNat / 2 ^ shift ∧
      (wholeRows product shift).2.toNat = product.toNat % 2 ^ shift := by
  unfold wholeRows
  split_ifs with hs
  · have hsmall : product.toNat < 2 ^ shift :=
      h.trans (Nat.pow_lt_pow_right (by norm_num) (by omega))
    exact ⟨(Nat.div_eq_of_lt hsmall).symm, (Nat.mod_eq_of_lt hsmall).symm⟩
  · have hs : shift < 128 := by omega
    constructor
    · rw [BitVec.toNat_ushiftRight, Nat.shiftRight_eq_div_pow]
    · rw [BitVec.toNat_and, toNat_mask hs, Nat.and_two_pow_sub_one_eq_mod]

theorem shiftUp?_one (h : shift < 128) : shiftUp? 1 shift = some ((1 : WideWord) <<< shift) := by
  unfold shiftUp?
  apply if_pos
  refine ⟨h, ?_⟩
  change 1 * 2 ^ shift < 2 ^ 128
  rw [one_mul]
  exact Nat.pow_lt_pow_right (by norm_num) h

theorem checkedWholeRows?_eq :
    checkedWholeRows? product shift = some (wholeRows product shift) := by
  unfold checkedWholeRows? wholeRows
  split_ifs with hs
  · rfl
  · have hs : shift < 128 := by omega
    have hone : (1 : WideWord).toNat ≤ ((1 : WideWord) <<< shift).toNat := by
      rw [toNat_oneShiftUp hs]
      exact Nat.one_le_two_pow
    have hmask : sub? ((1 : WideWord) <<< shift) 1 = some (((1 : WideWord) <<< shift) - 1) :=
      if_pos hone
    have hdown : shiftDown? product shift = some (product >>> shift) := if_pos hs
    simp only [shiftUp?_one hs, hdown, hmask, Option.bind_eq_bind, Option.bind_some,
      Option.pure_def]

end Split

section Rounding

variable {rows product rest : WideWord} {shift : ℕ}

theorem dueToRounding_iff (shift : ℕ) (hrows : rows.toNat < 2 ^ 64) (hrest : rest.toNat < 2 ^ 117) :
    dueToRounding rows rest shift = true ↔
      rows.toNat < 2 ^ shift ∧ 2 * rest.toNat ≤ rows.toNat := by
  have htwice : (2 * rest).toNat = 2 * rest.toNat := by
    rw [BitVec.toNat_mul]
    exact Nat.mod_eq_of_lt (by change 2 * rest.toNat < 2 ^ 128; omega)
  unfold dueToRounding
  rw [Bool.and_eq_true, Bool.or_eq_true, decide_eq_true_iff, decide_eq_true_iff, decide_eq_true_iff,
    BitVec.le_def, htwice, BitVec.lt_def]
  by_cases hs : shift < 128
  · rw [toNat_oneShiftUp hs]
    have hnot : ¬128 ≤ shift := by omega
    simp only [hnot, false_or]
  · have hbig : rows.toNat < 2 ^ shift :=
      hrows.trans (Nat.pow_lt_pow_right (by norm_num) (by omega))
    have hs : 128 ≤ shift := by omega
    simp only [hs, hbig, true_or, true_and]

theorem checkedDueToRounding?_eq (rows : WideWord) (shift : ℕ) (hrest : rest.toNat < 2 ^ 117) :
    checkedDueToRounding? rows rest shift = some (dueToRounding rows rest shift) := by
  have htwice : mul? 2 rest = some (2 * rest) :=
    if_pos (by change 2 * rest.toNat < 2 ^ 128; omega)
  unfold checkedDueToRounding? dueToRounding
  by_cases hs : 128 ≤ shift
  · simp only [hs, if_true, htwice, Option.map_some, decide_true, Bool.true_or, Bool.true_and]
  · have hone := shiftUp?_one (show shift < 128 by omega)
    by_cases hb : rows < (1 : WideWord) <<< shift
    · simp only [hs, hb, if_false, if_true, hone, htwice, Option.bind_eq_bind, Option.bind_some,
        Option.map_some, decide_true, Bool.or_true, Bool.true_and]
    · simp only [hs, hb, if_false, hone, Option.bind_eq_bind, Option.bind_some, decide_false,
        Bool.or_false, Bool.false_and]

theorem checkedRoundUpRows?_eq (hproduct : product.toNat < 2 ^ 117) :
    checkedRoundUpRows? rows product shift = some (roundUpRows rows product shift) := by
  obtain ⟨hwhole, hrest⟩ := toNat_wholeRows shift hproduct
  have hwhole_le : (wholeRows product shift).1.toNat ≤ product.toNat :=
    hwhole ▸ Nat.div_le_self _ _
  have hrest_le : (wholeRows product shift).2.toNat ≤ product.toNat := hrest ▸ Nat.mod_le _ _
  have hnext : add? (wholeRows product shift).1 1 = some ((wholeRows product shift).1 + 1) :=
    if_pos (by change (wholeRows product shift).1.toNat + 1 < 2 ^ 128; omega)
  have hspared := checkedDueToRounding?_eq rows shift (hrest_le.trans_lt hproduct)
  unfold checkedRoundUpRows? roundUpRows
  rw [checkedWholeRows?_eq, Option.bind_eq_bind, Option.bind_some]
  dsimp only
  rw [hspared, Option.bind_eq_bind, Option.bind_some]
  split_ifs
  · rfl
  · exact hnext

theorem toNat_roundUpRows (hrows : rows.toNat < 2 ^ 64) (hproduct : product.toNat < 2 ^ 117) :
    (roundUpRows rows product shift).toNat =
      if product.toNat % 2 ^ shift = 0 ∨
          (rows.toNat < 2 ^ shift ∧ 2 * (product.toNat % 2 ^ shift) ≤ rows.toNat) then
        product.toNat / 2 ^ shift
      else product.toNat / 2 ^ shift + 1 := by
  obtain ⟨hwhole, hrest⟩ := toNat_wholeRows shift hproduct
  have hle : product.toNat / 2 ^ shift ≤ product.toNat := Nat.div_le_self _ _
  have hmod : product.toNat % 2 ^ shift ≤ product.toNat := Nat.mod_le _ _
  have hdue := dueToRounding_iff shift hrows
    (show (wholeRows product shift).2.toNat < 2 ^ 117 by omega)
  have hzero : (wholeRows product shift).2 = 0 ↔ product.toNat % 2 ^ shift = 0 := by
    rw [← hrest]
    exact ⟨fun h => by rw [h]; rfl, fun h => BitVec.eq_of_toNat_eq h⟩
  rw [hrest] at hdue
  unfold roundUpRows
  simp only [Bool.or_eq_true, decide_eq_true_iff, hzero, hdue]
  split_ifs with h
  · exact hwhole
  · rw [BitVec.toNat_add, hwhole]
    exact Nat.mod_eq_of_lt (by change product.toNat / 2 ^ shift + 1 < 2 ^ 128; omega)

end Rounding

section Scaling

variable {rows mantissa : ℕ}

/-- A row count times a mantissa takes 117 bits at most. -/
theorem product_lt (hrows : rows < 2 ^ 64) (hmantissa : mantissa < 2 ^ 53) :
    rows * mantissa < 2 ^ 117 :=
  calc rows * mantissa ≤ rows * 2 ^ 53 := Nat.mul_le_mul_left _ hmantissa.le
    _ < 2 ^ 64 * 2 ^ 53 := Nat.mul_lt_mul_of_pos_right hrows (by norm_num)
    _ = 2 ^ 117 := by norm_num

theorem toNat_product (hrows : rows < 2 ^ 64) (hmantissa : mantissa < 2 ^ 53) :
    (BitVec.ofNat 128 rows * BitVec.ofNat 128 mantissa).toNat = rows * mantissa := by
  have hproduct := product_lt hrows hmantissa
  rw [BitVec.toNat_mul, BitVec.toNat_ofNat, BitVec.toNat_ofNat,
    Nat.mod_eq_of_lt (show rows < 2 ^ 128 by omega),
    Nat.mod_eq_of_lt (show mantissa < 2 ^ 128 by omega)]
  exact Nat.mod_eq_of_lt (by omega)

theorem log2_mul_two_pow {n : ℕ} (h : n ≠ 0) (shift : ℕ) :
    (n * 2 ^ shift).log2 = n.log2 + shift := by
  induction shift with
  | zero => rw [pow_zero, mul_one, Nat.add_zero]
  | succ shift ih =>
    have hdouble : n * 2 ^ (shift + 1) = 2 * (n * 2 ^ shift) := by rw [pow_succ]; ring
    rw [hdouble, Nat.log2_two_mul (by positivity), ih, Nat.add_assoc]

theorem log2_add_lt_iff {n shift : ℕ} (h : n ≠ 0) :
    n.log2 + shift < 128 ↔ n * 2 ^ shift < wideBound := by
  rw [wideBound, ← Nat.log2_lt (by positivity), log2_mul_two_pow h]

theorem exactRows_of_product_eq_zero (h : rows * mantissa = 0) (exponent : ℤ) :
    exactRows rows mantissa exponent = 0 := by
  unfold exactRows
  simp only [h, zero_mul, Nat.zero_mod, Nat.zero_div, true_or, if_true, ite_self]

/-- The scaling in words gives the exact capacity whenever that is a size. -/
theorem scaleRows?_eq (hrows : rows < 2 ^ 64) (hmantissa : mantissa < 2 ^ 53) (exponent : ℤ) :
    scaleRows? rows mantissa exponent = asSize? (exactRows rows mantissa exponent) := by
  have hproduct := toNat_product hrows hmantissa
  have hsmall := product_lt hrows hmantissa
  have hrows_word : (BitVec.ofNat 128 rows).toNat = rows :=
    (BitVec.toNat_ofNat _ _).trans (Nat.mod_eq_of_lt (by omega))
  unfold scaleRows?
  simp only
  split_ifs with hzero hexp
  · have hz : rows * mantissa = 0 := by rw [← hproduct, hzero]; rfl
    rw [exactRows_of_product_eq_zero hz exponent]
    rfl
  · have hne : rows * mantissa ≠ 0 := fun h => hzero (BitVec.eq_of_toNat_eq (hproduct.trans h))
    rw [exactRows, if_pos hexp, scaleUpRows?, hproduct]
    split_ifs with hfits
    · rw [log2_add_lt_iff hne] at hfits
      rw [Option.bind_eq_bind, Option.bind_some, toNat_shiftUp (by rwa [hproduct]), hproduct]
    · rw [log2_add_lt_iff hne] at hfits
      have hlarge : ¬rows * mantissa * 2 ^ exponent.toNat < sizeBound := by
        intro h
        exact hfits (h.trans (by rw [sizeBound_eq, wideBound]; norm_num))
      rw [asSize?, if_neg hlarge]
      rfl
  · rw [exactRows, if_neg hexp, toNat_roundUpRows (by omega) (by omega), hproduct, hrows_word]

/-- No step of the scaling leaves the word, and no shift is by its width or more. -/
theorem checkedScaleRows?_eq (hrows : rows < 2 ^ 64) (hmantissa : mantissa < 2 ^ 53)
    (exponent : ℤ) :
    checkedScaleRows? rows mantissa exponent = some (scaleRows? rows mantissa exponent) := by
  have hproduct := toNat_product hrows hmantissa
  have hsmall := product_lt hrows hmantissa
  have hmul : mul? (BitVec.ofNat 128 rows) (BitVec.ofNat 128 mantissa) =
      some (BitVec.ofNat 128 rows * BitVec.ofNat 128 mantissa) := by
    apply if_pos
    rw [BitVec.toNat_ofNat, BitVec.toNat_ofNat, Nat.mod_eq_of_lt (show rows < 2 ^ 128 by omega),
      Nat.mod_eq_of_lt (show mantissa < 2 ^ 128 by omega), wideBound]
    omega
  unfold checkedScaleRows? scaleRows?
  simp only [hmul, Option.bind_eq_bind, Option.bind_some]
  split_ifs with hzero hexp hfits
  · rfl
  · have hne : rows * mantissa ≠ 0 := fun h => hzero (BitVec.eq_of_toNat_eq (hproduct.trans h))
    have hbound := hfits
    rw [hproduct, log2_add_lt_iff hne] at hbound
    have hup : shiftUp? (BitVec.ofNat 128 rows * BitVec.ofNat 128 mantissa) exponent.toNat =
        some ((BitVec.ofNat 128 rows * BitVec.ofNat 128 mantissa) <<< exponent.toNat) :=
      if_pos ⟨by omega, by rwa [hproduct]⟩
    rw [scaleUpRows?, if_pos hfits, hup]
    rfl
  · rw [scaleUpRows?, if_neg hfits]
    rfl
  · rw [checkedRoundUpRows?_eq (by omega)]
    rfl

end Scaling

end KernelDispatch
