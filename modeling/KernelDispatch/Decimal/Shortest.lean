/-!
# Shortest decimals

A binary floating point value stands for an interval of reals, those that round to it. Its
shortest decimal is the multiple of the largest power of ten that lies in this interval, the
nearest one if there are several. Everything is exact arithmetic on natural numbers.
-/

namespace KernelDispatch

/-- The reals that round to one value: `value`, `low` and `high` are numerators over `scale`, and
the two ends belong to the interval iff `closed`. -/
structure RoundingInterval where
  value : Nat
  low : Nat
  high : Nat
  scale : Nat
  closed : Bool

structure Decimal where
  digits : Nat
  exponent : Int
deriving DecidableEq, Repr

namespace RoundingInterval

/-- The interval of `mantissa * 2 ^ exponent`. The gap to the next value is one unit in the last
place; the gap to the previous value is half of that where `narrowBelow`, which happens at the
bottom of a binade. An end rounds to the even mantissa. -/
def ofBinary (mantissa : Nat) (exponent : Int) (narrowBelow : Bool) : RoundingInterval :=
  let step := 1 <<< (exponent - 2).toNat
  { value := 4 * mantissa * step
    low := (4 * mantissa - if narrowBelow then 1 else 2) * step
    high := (4 * mantissa + 2) * step
    scale := 1 <<< (2 - exponent).toNat
    closed := mantissa % 2 == 0 }

variable (I : RoundingInterval)

def holds (n d : Nat) : Bool :=
  if I.closed then I.low * d ≤ n * I.scale && n * I.scale ≤ I.high * d
  else I.low * d < n * I.scale && n * I.scale < I.high * d

/-- The point of the grid of multiples of `10 ^ k` that lies in the interval. Only the two
neighbours of the value can, if any point does. Of two such points the nearer is taken, and the
larger if both are equally near. -/
def pointOnGrid (k : Int) : Option Nat :=
  let unit := Nat.pow 10 k.toNat
  let refine := Nat.pow 10 (-k).toNat
  let below := I.value * refine / (I.scale * unit)
  let above := below + 1
  let inside n := n != 0 && I.holds (n * unit) refine
  let fromBelow := I.value * refine - below * unit * I.scale
  let toAbove := above * unit * I.scale - I.value * refine
  if inside below && (!inside above || fromBelow < toAbove) then some below
  else if inside above then some above
  else none

/-- The shortest decimal of the interval, searched from the grid of `10 ^ coarsest` down to the
grid of `10 ^ (coarsest - steps)`. -/
def shortest? (coarsest : Int) (steps : Nat) : Option Decimal :=
  (List.range (steps + 1)).findSome? fun (i : Nat) =>
    (I.pointOnGrid (coarsest - i)).map fun digits => ⟨digits, coarsest - i⟩

end RoundingInterval

/-- The decimal number written out in full: no exponent, and a point only where a fraction
follows. -/
def Decimal.positional (x : Decimal) : String :=
  let digits := Nat.toDigits 10 x.digits
  if 0 ≤ x.exponent then
    String.ofList (digits ++ List.replicate x.exponent.toNat '0')
  else
    let places := (-x.exponent).toNat
    let padded := List.replicate (places + 1 - digits.length) '0' ++ digits
    let whole := padded.length - places
    String.ofList (padded.take whole ++ '.' :: padded.drop whole)

end KernelDispatch
