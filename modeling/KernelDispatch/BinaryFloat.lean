import KernelDispatch.Decimal.Shortest

/-!
# Binary floating point numbers as bit patterns

A float is kept as its bits, so that the payload of a NaN and the sign of a zero survive storage.
Decoding gives the exact value `mantissa * 2 ^ exponent`; comparison follows the arithmetic rules
(a NaN equals nothing, both zeros are equal); the text is the shortest decimal that reads back,
written out in full.
-/

namespace KernelDispatch

/-- How many bits of a pattern hold the exponent and the fraction; one more holds the sign. -/
structure FloatFormat where
  exponentBits : Nat
  fractionBits : Nat
deriving DecidableEq, Repr

def FloatFormat.single : FloatFormat := ⟨8, 23⟩

def FloatFormat.double : FloatFormat := ⟨11, 52⟩

inductive FloatValue
  | nan
  | infinite (negative : Bool)
  | finite (negative : Bool) (mantissa : Nat) (exponent : Int)
deriving DecidableEq, Repr

namespace FloatFormat

variable (F : FloatFormat)

/-- The largest value of the exponent field, kept for infinities and NaNs. -/
def topExponent : Nat := (1 <<< F.exponentBits) - 1

/-- Exponent of the last place of the smallest values. -/
def leastExponent : Int := 2 - (1 <<< (F.exponentBits - 1) : Nat) - F.fractionBits

def exponentField (bits : Nat) : Nat := (bits >>> F.fractionBits) % (1 <<< F.exponentBits)

def fractionField (bits : Nat) : Nat := bits % (1 <<< F.fractionBits)

def isNegative (bits : Nat) : Bool := bits.testBit (F.exponentBits + F.fractionBits)

/-- The value of a pattern. A normal value has an implicit leading one; the values with exponent
field zero share the unit of the smallest normal ones. -/
def decode (bits : Nat) : FloatValue :=
  let field := F.exponentField bits
  let fraction := F.fractionField bits
  if field = F.topExponent then
    if fraction = 0 then .infinite (F.isNegative bits) else .nan
  else if field = 0 then
    .finite (F.isNegative bits) fraction F.leastExponent
  else
    .finite (F.isNegative bits) (fraction + (1 <<< F.fractionBits)) (F.leastExponent + field - 1)

def isNaN (bits : Nat) : Bool :=
  F.exponentField bits == F.topExponent && F.fractionField bits != 0

/-- Arithmetic equality of two patterns. -/
def sameValue (a b : Nat) : Bool :=
  match F.decode a, F.decode b with
  | .nan, _ => false
  | _, .nan => false
  | .finite _ 0 _, .finite _ 0 _ => true
  | _, _ => a == b

/-- Decimal exponents that the search for a shortest decimal starts with, above the largest
double, and how far down it goes, below the smallest. -/
def decimalRange : Int × Nat := (310, 650)

/-- The least mantissa of a binade other than the lowest has its lower neighbour half a unit
away. -/
def isBinadeBottom (mantissa : Nat) (exponent : Int) : Bool :=
  mantissa == 1 <<< F.fractionBits && F.leastExponent < exponent

/-- The shortest decimal that rounds to `mantissa * 2 ^ exponent`. -/
def shortest (mantissa : Nat) (exponent : Int) : Decimal :=
  let interval := RoundingInterval.ofBinary mantissa exponent (F.isBinadeBottom mantissa exponent)
  (interval.shortest? decimalRange.1 decimalRange.2).getD ⟨0, 0⟩

/-- The text of a pattern: no exponent, no trailing `.0`, and the sign of zero is kept. -/
def text (bits : Nat) : String :=
  match F.decode bits with
  | .nan => "NaN"
  | .infinite negative => if negative then "-inf" else "inf"
  | .finite negative mantissa exponent =>
    let magnitude :=
      if mantissa = 0 then "0" else (F.shortest mantissa exponent).positional
    if negative then "-" ++ magnitude else magnitude

end FloatFormat

/-- The double that has the value of a single. Every single has one; a NaN keeps its sign and
payload and becomes quiet. -/
def widenSingle (bits : BitVec 32) : BitVec 64 :=
  let F := FloatFormat.single
  let n := bits.toNat
  let sign := if F.isNegative n then 1 <<< 63 else 0
  let field := F.exponentField n
  let fraction := F.fractionField n
  let magnitude :=
    if field = F.topExponent then
      let payload := fraction % (1 <<< 22)
      (2047 <<< 52) + if fraction = 0 then 0 else (1 <<< 51) + (payload <<< 29)
    else if field ≠ 0 then ((field + 896) <<< 52) + (fraction <<< 29)
    else if fraction = 0 then 0
    else
      let top := fraction.log2
      ((874 + top) <<< 52) + ((fraction - (1 <<< top)) <<< (52 - top))
  BitVec.ofNat 64 (sign + magnitude)

end KernelDispatch
