/-!
# JSON values

A document is kept as it was written: members of an object in order and with their repetitions,
strings with their `\u` escapes unresolved. Reading a typed value from a document can then refuse
a repeated field, and a string is resolved only where its text matters.
-/

namespace KernelDispatch

/-- One character of a JSON string: written as itself or by a short escape, or as the number of a
sixteen-bit unit. -/
inductive TextUnit
  | char (c : Char)
  | escaped (unit : Nat)
deriving DecidableEq, Repr

namespace TextUnit

/-- The first unit of a pair that stands for one character. -/
def isHighHalf (unit : Nat) : Bool := 0xd800 ≤ unit && unit < 0xdc00

/-- The second unit of such a pair. -/
def isLowHalf (unit : Nat) : Bool := 0xdc00 ≤ unit && unit < 0xe000

/-- The characters that units stand for. A pair of halves is one character; a half on its own is
none. -/
def resolve : List TextUnit → Option (List Char)
  | [] => some []
  | .char c :: rest => (resolve rest).map (c :: ·)
  | .escaped high :: .escaped low :: rest =>
    if isHighHalf high then
      if isLowHalf low then
        let point := 0x10000 + (high - 0xd800) * 0x400 + (low - 0xdc00)
        (resolve rest).map (Char.ofNat point :: ·)
      else none
    else if isLowHalf high then none
    else (resolve (.escaped low :: rest)).map (Char.ofNat high :: ·)
  | .escaped unit :: rest =>
    if isHighHalf unit || isLowHalf unit then none
    else (resolve rest).map (Char.ofNat unit :: ·)

def text? (units : List TextUnit) : Option String := (resolve units).map String.ofList

@[simp] theorem resolve_map_char (cs : List Char) : resolve (cs.map .char) = some cs := by
  induction cs with
  | nil => rfl
  | cons c cs ih => simp [resolve, ih]

@[simp] theorem text?_map_char (s : String) : text? (s.toList.map .char) = some s := by
  simp [text?]

end TextUnit

/-- A JSON document. A number without fraction and exponent is an integer, except for `-0`, which
only a real number can hold; a real keeps its literal. -/
inductive Json
  | null
  | bool (value : Bool)
  | integer (value : Int)
  | real (literal : String)
  | string (units : List TextUnit)
  | array (items : List Json)
  | object (members : List (List TextUnit × Json))
deriving Repr

namespace Json

def ofText (s : String) : Json := .string (s.toList.map .char)

def ofMembers (members : List (String × Json)) : Json :=
  .object (members.map fun (name, value) => (name.toList.map .char, value))

/-- The members of an object with their names resolved; none if a name stands for no text. -/
def named? (members : List (List TextUnit × Json)) : Option (List (String × Json)) :=
  members.mapM fun (units, value) => (TextUnit.text? units).map fun name => (name, value)

/-- The value of a field: the outer `none` if the field is repeated, the inner one if it is
missing. Members under other names do not matter. -/
def field? (name : String) (members : List (String × Json)) : Option (Option Json) :=
  match members.filter (·.1 == name) with
  | [] => some none
  | [(_, value)] => some (some value)
  | _ => none

def integerIn? (low high : Int) : Json → Option Int
  | .integer n => if low ≤ n ∧ n ≤ high then some n else none
  | _ => none

def unsigned32? (j : Json) : Option UInt32 :=
  (j.integerIn? 0 (UInt32.size - 1)).map fun n => UInt32.ofNat n.toNat

def signed64? (j : Json) : Option (BitVec 64) :=
  (j.integerIn? Int64.minValue.toInt Int64.maxValue.toInt).map fun n => BitVec.ofInt 64 n

/-- Objects and arrays that may be open at once while a typed value is read. What a reader skips
is not counted. -/
def nestingLimit : Nat := 127

/-- A choice among names without content: the name as a string, or as the only member of an
object with the value null. -/
def choice? (room : Nat) : Json → Option String
  | .string units => TextUnit.text? units
  | .object [(units, .null)] => if 0 < room then TextUnit.text? units else none
  | _ => none

end Json

end KernelDispatch
