import Mathlib.Tactic.SplitIfs
import KernelDispatch.Plan

/-!
# When two values are the same

Floats are compared by their values: a NaN is the same as nothing, itself included, and both zeros
are the same. So two values are the same if there is no NaN in the one and it is the other up to the
signs of zeros. This is symmetric and transitive, and reflexive on values without a NaN.
-/

namespace KernelDispatch

namespace FloatFormat

variable {F : FloatFormat} {a b : Nat}

def isZero (F : FloatFormat) (bits : Nat) : Bool :=
  match F.decode bits with
  | .finite _ 0 _ => true
  | _ => false

theorem isNaN_iff : F.isNaN a = true ↔ F.decode a = .nan := by
  simp only [isNaN, decode, Bool.and_eq_true, beq_iff_eq, bne_iff_ne]
  split_ifs with hfield hfraction
  · simp [hfield, hfraction]
  · simp [hfield, hfraction]
  · simp [hfield]
  · simp [hfield]

theorem isZero_iff : F.isZero a = true ↔ ∃ s e, F.decode a = .finite s 0 e := by
  unfold isZero
  split
  · rename_i s e heq
    exact ⟨fun _ => ⟨s, e, heq⟩, fun _ => rfl⟩
  · rename_i hne
    exact ⟨nofun, fun ⟨s, e, heq⟩ => absurd heq (hne s e)⟩

theorem isNaN_of_isZero (h : F.isZero a = true) : F.isNaN a = false := by
  obtain ⟨s, e, hdecode⟩ := isZero_iff.mp h
  rw [Bool.eq_false_iff, ne_eq, isNaN_iff, hdecode]
  exact nofun

/-- Neither pattern is a NaN, and they are equal or both are zeros. -/
theorem sameValue_iff : F.sameValue a b = true ↔
    F.isNaN a = false ∧ F.isNaN b = false ∧ (a = b ∨ F.isZero a = true ∧ F.isZero b = true) := by
  rw [Bool.eq_false_iff, Bool.eq_false_iff, ne_eq, ne_eq, isNaN_iff, isNaN_iff, isZero_iff,
    isZero_iff]
  unfold sameValue
  split
  · rename_i ha
    simp [ha]
  · rename_i hb _
    simp [hb]
  · rename_i ha hb
    simp [ha, hb]
  · rename_i hna hnb hzeros
    rw [beq_iff_eq]
    constructor
    · rintro rfl
      exact ⟨hna, hna, .inl rfl⟩
    · rintro ⟨-, -, rfl | ⟨⟨s, e, ha⟩, s', e', hb⟩⟩
      · rfl
      · exact absurd hb (hzeros _ _ _ _ ha)

/-- The pattern of a zero without its sign, and any other pattern as it is. -/
def unsignZero (F : FloatFormat) (bits : Nat) : Nat := if F.isZero bits then 0 else bits

theorem sameValue_iff_unsignZero (hzero : F.isZero 0 = true) :
    F.sameValue a b = true ↔ F.isNaN a = false ∧ F.unsignZero a = F.unsignZero b := by
  rw [sameValue_iff, unsignZero, unsignZero]
  constructor
  · rintro ⟨hnan, -, rfl | ⟨ha, hb⟩⟩
    · exact ⟨hnan, rfl⟩
    · exact ⟨hnan, by rw [if_pos ha, if_pos hb]⟩
  · rintro ⟨hnan, heq⟩
    split_ifs at heq with ha hb hb
    · exact ⟨hnan, isNaN_of_isZero hb, .inr ⟨ha, hb⟩⟩
    · exact absurd (heq ▸ hzero) hb
    · exact absurd (heq ▸ hzero) ha
    · exact ⟨hnan, heq ▸ hnan, .inl heq⟩

theorem isNaN_unsignZero (hzero : F.isZero 0 = true) : F.isNaN (F.unsignZero a) = F.isNaN a := by
  unfold unsignZero
  split_ifs with ha
  · rw [isNaN_of_isZero ha, isNaN_of_isZero hzero]
  · rfl

theorem toNat_unsignZero {n : Nat} (v : BitVec n) :
    (BitVec.ofNat n (F.unsignZero v.toNat)).toNat = F.unsignZero v.toNat := by
  rw [BitVec.toNat_ofNat]
  apply Nat.mod_eq_of_lt
  unfold unsignZero
  split_ifs
  · exact Nat.two_pow_pos n
  · exact v.isLt

theorem ofNat_unsignZero_inj {n : Nat} {v w : BitVec n} :
    BitVec.ofNat n (F.unsignZero v.toNat) = BitVec.ofNat n (F.unsignZero w.toNat) ↔
      F.unsignZero v.toNat = F.unsignZero w.toNat := by
  rw [← BitVec.toNat_inj, toNat_unsignZero, toNat_unsignZero]

end FloatFormat

namespace Scalar

mutual

/-- Whether there is no NaN in a value. -/
def nanFree : Scalar → Bool
  | float32 v => !FloatFormat.single.isNaN v.toNat
  | float64 v => !FloatFormat.double.isNaN v.toNat
  | list items => nanFreeItems items
  | _ => true

def nanFreeItems : List Scalar → Bool
  | [] => true
  | item :: rest => item.nanFree && nanFreeItems rest

end

mutual

/-- The value with all zeros of floats positive. -/
def unsignZeros : Scalar → Scalar
  | float32 v => float32 (.ofNat 32 (FloatFormat.single.unsignZero v.toNat))
  | float64 v => float64 (.ofNat 64 (FloatFormat.double.unsignZero v.toNat))
  | list items => list (unsignZerosItems items)
  | v => v

def unsignZerosItems : List Scalar → List Scalar
  | [] => []
  | item :: rest => item.unsignZeros :: unsignZerosItems rest

end

theorem width_and_toNat_iff {n m : Width} {a : BitVec n.bits} {b : BitVec m.bits} :
    n = m ∧ a.toNat = b.toNat ↔ n = m ∧ HEq a b := by
  constructor
  · rintro ⟨rfl, heq⟩
    exact ⟨rfl, heq_of_eq (BitVec.eq_of_toNat_eq heq)⟩
  · rintro ⟨rfl, heq⟩
    exact ⟨rfl, congrArg BitVec.toNat (eq_of_heq heq)⟩

mutual

/-- Two values are the same if there is no NaN in the one and they are equal up to the signs of
zeros. -/
theorem same_iff : ∀ v w : Scalar,
    v.same w = true ↔ v.nanFree = true ∧ v.unsignZeros = w.unsignZeros
  | .list as, w => by
    cases w with
    | list bs => simpa [same, nanFree, unsignZeros] using sameItems_iff as bs
    | _ => simp [same, unsignZeros]
  | .float32 a, w => by
    cases w with
    | float32 b =>
      simpa [same, nanFree, unsignZeros, FloatFormat.ofNat_unsignZero_inj] using
        FloatFormat.sameValue_iff_unsignZero rfl
    | _ => simp [same, unsignZeros]
  | .float64 a, w => by
    cases w with
    | float64 b =>
      simpa [same, nanFree, unsignZeros, FloatFormat.ofNat_unsignZero_inj] using
        FloatFormat.sameValue_iff_unsignZero rfl
    | _ => simp [same, unsignZeros]
  | .int n a, w => by
    cases w with
    | int m b => simpa [same, nanFree, unsignZeros] using width_and_toNat_iff
    | _ => simp [same, unsignZeros]
  | .uint n a, w => by
    cases w with
    | uint m b => simpa [same, nanFree, unsignZeros] using width_and_toNat_iff
    | _ => simp [same, unsignZeros]
  | .null, w => by cases w <;> simp [same, nanFree, unsignZeros]
  | .boolean a, w => by cases w <;> simp [same, nanFree, unsignZeros]
  | .utf8 a, w => by cases w <;> simp [same, nanFree, unsignZeros]
  | .binary a, w => by cases w <;> simp [same, nanFree, unsignZeros]

theorem sameItems_iff : ∀ vs ws : List Scalar,
    sameItems vs ws = true ↔ nanFreeItems vs = true ∧ unsignZerosItems vs = unsignZerosItems ws
  | [], ws => by cases ws <;> simp [sameItems, nanFreeItems, unsignZerosItems]
  | v :: vs, [] => by simp [sameItems, unsignZerosItems]
  | v :: vs, w :: ws => by
    simp only [sameItems, nanFreeItems, unsignZerosItems, Bool.and_eq_true, List.cons.injEq]
    rw [same_iff v w, sameItems_iff vs ws]
    exact and_and_and_comm

end

mutual

theorem nanFree_unsignZeros : ∀ v : Scalar, v.unsignZeros.nanFree = v.nanFree
  | .list items => by
    rw [unsignZeros, nanFree, nanFree]
    exact nanFreeItems_unsignZeros items
  | .float32 v => by
    rw [unsignZeros, nanFree, nanFree, FloatFormat.toNat_unsignZero,
      FloatFormat.isNaN_unsignZero rfl]
  | .float64 v => by
    rw [unsignZeros, nanFree, nanFree, FloatFormat.toNat_unsignZero,
      FloatFormat.isNaN_unsignZero rfl]
  | .null | .boolean _ | .int _ _ | .uint _ _ | .utf8 _ | .binary _ => rfl

theorem nanFreeItems_unsignZeros :
    ∀ vs : List Scalar, nanFreeItems (unsignZerosItems vs) = nanFreeItems vs
  | [] => rfl
  | v :: vs => by
    rw [unsignZerosItems, nanFreeItems, nanFreeItems, nanFree_unsignZeros v,
      nanFreeItems_unsignZeros vs]

end

theorem datatype_unsignZeros : ∀ v : Scalar, v.unsignZeros.datatype = v.datatype
  | .list [] => rfl
  | .list (first :: _) => congrArg DataType.list (datatype_unsignZeros first)
  | .null | .boolean _ | .int _ _ | .uint _ _ | .float32 _ | .float64 _ | .utf8 _ | .binary _ => rfl

theorem same_self (v : Scalar) : v.same v = v.nanFree :=
  Bool.eq_iff_iff.mpr ((same_iff v v).trans (and_iff_left rfl))

variable {u v w : Scalar}

theorem same_symm (h : v.same w = true) : w.same v = true := by
  obtain ⟨hnan, heq⟩ := (same_iff v w).mp h
  refine (same_iff w v).mpr ⟨?_, heq.symm⟩
  rw [← nanFree_unsignZeros, ← heq, nanFree_unsignZeros, hnan]

theorem same_trans (h : u.same v = true) (h' : v.same w = true) : u.same w = true := by
  obtain ⟨hnan, heq⟩ := (same_iff u v).mp h
  exact (same_iff u w).mpr ⟨hnan, heq.trans ((same_iff v w).mp h').2⟩

theorem datatype_of_same (h : v.same w = true) : v.datatype = w.datatype := by
  rw [← datatype_unsignZeros v, ((same_iff v w).mp h).2, datatype_unsignZeros w]

end Scalar

namespace InputExpr

/-- An input is the same as itself unless it is a constant with a NaN in it. -/
theorem same_self_iff (e : InputExpr) :
    e.same e = true ↔ ∀ v, e = .constant v → v.nanFree = true := by
  cases e with
  | constant v => simp [same, Scalar.same_self]
  | column ref => simp [same]
  | unresolved description => simp [same]

theorem same_symm {e e' : InputExpr} (h : e.same e' = true) : e'.same e = true := by
  cases e with
  | constant v =>
    cases e' with
    | constant w => exact Scalar.same_symm h
    | column | unresolved => cases h
  | column ref =>
    cases e' with
    | column ref' => exact beq_iff_eq.mpr (beq_iff_eq.mp h).symm
    | constant | unresolved => cases h
  | unresolved text =>
    cases e' with
    | unresolved text' => exact beq_iff_eq.mpr (beq_iff_eq.mp h).symm
    | constant | column => cases h

end InputExpr

end KernelDispatch
