import KernelDispatch.Failure

/-!
# Output row capacity

Output storage is sized before the kernel runs: the input row count times a row multiplier, rounded
up. The product is exact on the binary value of the multiplier. A product that exceeds a whole
number by no more than the rounding of the multiplier explains counts as that whole number, as long
as this error is below half a row.
-/

namespace KernelDispatch

/-- Row counts, sizes and capacities are below this bound. -/
def sizeBound : Nat := UInt64.size

def asSize? (n : Nat) : Option Nat := if n < sizeBound then some n else none

/-- Room for the product of a row count and a mantissa. The product takes 117 bits at most, so that
twice a remainder of it and one more than a quotient of it fit as well. -/
abbrev WideWord := BitVec 128

/-- A product of `2 ^ -shift` rows split into whole rows and a remainder. -/
def wholeRows (product : WideWord) (shift : Nat) : WideWord × WideWord :=
  if 128 ≤ shift then (0, product)
  else (product >>> shift, product &&& (((1 : WideWord) <<< shift) - 1))

/-- Whether a remainder, in units of `2 ^ -shift` rows, is due to the multiplier having been rounded
by up to half a unit for each row. An error of half a row or more is not put down to rounding. -/
def dueToRounding (rows rest : WideWord) (shift : Nat) : Bool :=
  (128 ≤ shift || rows < (1 : WideWord) <<< shift) && 2 * rest ≤ rows

/-- A product of `2 ^ -shift` rows, rounded up unless the remainder is due to rounding. -/
def roundUpRows (rows product : WideWord) (shift : Nat) : WideWord :=
  let (whole, rest) := wholeRows product shift
  if rest = 0 || dueToRounding rows rest shift then whole else whole + 1

/-- A product of `2 ^ shift` rows; none if its highest bit would leave the word. -/
def scaleUpRows? (product : WideWord) (shift : Nat) : Option WideWord :=
  if product.toNat.log2 + shift < 128 then some (product <<< shift) else none

/-- Capacity for `rows` input rows under the multiplier `mantissa * 2 ^ exponent`; none if it is
not a size. -/
def scaleRows? (rows mantissa : Nat) (exponent : Int) : Option Nat :=
  let rows := BitVec.ofNat 128 rows
  let product := rows * BitVec.ofNat 128 mantissa
  if product = 0 then some 0
  else if 0 ≤ exponent then do
    let capacity ← scaleUpRows? product exponent.toNat
    asSize? capacity.toNat
  else asSize? (roundUpRows rows product (-exponent).toNat).toNat

/-- Output rows to allocate for an input of `rows` rows. -/
def Plan.rowCapacity (plan : Plan) (rows : Nat) : Except Failure Nat :=
  match plan.sizing with
  | none => .error (.noOutputSizing plan.name)
  | some (.rowMultiplier bits) =>
    match FloatFormat.double.decode bits.toNat with
    | .finite false (mantissa + 1) exponent =>
      match scaleRows? rows (mantissa + 1) exponent with
      | some capacity => .ok capacity
      | none => .error (.capacityTooLarge rows bits)
    | _ => .error (.invalidMultiplier plan.name bits)

end KernelDispatch
