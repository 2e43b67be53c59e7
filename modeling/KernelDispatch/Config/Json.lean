import KernelDispatch.Config
import KernelDispatch.Json.Parser
import KernelDispatch.Json.Printer

/-!
# Settings as JSON

Every field of the settings may be missing and then has its default; a launch shape that is present
has both its fields. Fields of other names are skipped. A repeated field, a null, and a number that
is not an integer in the field's range are refused. An array holds the fields in order without
their names.
-/

namespace KernelDispatch

namespace DeviceType

def jsonName : DeviceType → String
  | .cpu => "Cpu"
  | .gpu => "Gpu"

def ofJsonName? : String → Option DeviceType
  | "Cpu" => some .cpu
  | "Gpu" => some .gpu
  | _ => none

def parse? (text : String) : Option DeviceType := do
  let document ← Json.parse? text
  let name ← document.choice? Json.nestingLimit
  ofJsonName? name

def compact (t : DeviceType) : String := (Json.ofText t.jsonName).compact

end DeviceType

namespace UnsetRowCount

def jsonName : UnsetRowCount → String
  | .fallbackToCapacity => "fallback_to_capacity"
  | .strict => "strict"

def ofJsonName? : String → Option UnsetRowCount
  | "fallback_to_capacity" => some .fallbackToCapacity
  | "strict" => some .strict
  | _ => none

def ofJson? (j : Json) : Option UnsetRowCount := j.choice? Json.nestingLimit >>= ofJsonName?

end UnsetRowCount

def Json.required? {α : Type} (name : String) (read : Json → Option α)
    (members : List (String × Json)) : Option α := do
  let value ← (← Json.field? name members)
  read value

def Json.optional? {α : Type} (name : String) (read : Json → Option α) (absent : α)
    (members : List (String × Json)) : Option α := do
  match ← Json.field? name members with
  | none => some absent
  | some value => read value

namespace LaunchDims

def toJson (D : LaunchDims) : Json :=
  Json.ofMembers
    [("grid_size_x", .integer D.gridSize.toNat), ("block_size_x", .integer D.blockSize.toNat)]

def ofJson? : Json → Option LaunchDims
  | .object members => do
    let named ← Json.named? members
    let gridSize ← Json.required? "grid_size_x" Json.unsigned32? named
    let blockSize ← Json.required? "block_size_x" Json.unsigned32? named
    return { gridSize, blockSize }
  | .array [grid, block] => do
    let gridSize ← grid.unsigned32?
    let blockSize ← block.unsigned32?
    return { gridSize, blockSize }
  | _ => none

end LaunchDims

namespace Config

def toJson (c : Config) : Json :=
  Json.ofMembers
    [("device_id", .integer c.deviceId.toNat), ("launch", c.launch.toJson),
      ("gpu_unset_row_count", Json.ofText c.unsetRowCount.jsonName),
      ("row_count_sentinel", .integer c.sentinel.toInt)]

def ofPositions? (items : List Json) : Option (List (String × Json)) :=
  if items.length ≤ 4 then
    some (["device_id", "launch", "gpu_unset_row_count", "row_count_sentinel"].zip items)
  else none

def ofFields? (fields : List (String × Json)) : Option Config := do
  let absent : Config := {}
  let deviceId ← Json.optional? "device_id" Json.unsigned32? absent.deviceId fields
  let launch ← Json.optional? "launch" LaunchDims.ofJson? absent.launch fields
  let unsetRowCount ←
    Json.optional? "gpu_unset_row_count" UnsetRowCount.ofJson? absent.unsetRowCount fields
  let sentinel ← Json.optional? "row_count_sentinel" Json.signed64? absent.sentinel fields
  return { deviceId, launch, unsetRowCount, sentinel }

def ofJson? : Json → Option Config
  | .object members => Json.named? members >>= ofFields?
  | .array items => ofPositions? items >>= ofFields?
  | _ => none

def parse? (text : String) : Option Config := Json.parse? text >>= ofJson?

def compact (c : Config) : String := c.toJson.compact

end Config

end KernelDispatch
