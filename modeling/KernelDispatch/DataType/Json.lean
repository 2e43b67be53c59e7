import KernelDispatch.DataType
import KernelDispatch.Json.Parser
import KernelDispatch.Json.Printer

/-!
# Logical types as JSON

A type without parts is written as its name. A list is an object with the one member `List`, which
holds the type of the values under `datatype`. On reading, a type without parts may also be an
object whose one member has the name of the type and the value null, and the content of `List` may
hold members of other names.
-/

namespace KernelDispatch.DataType

def toJson : DataType → Json
  | .list element => Json.ofMembers [("List", Json.ofMembers [("datatype", element.toJson)])]
  | t => Json.ofText t.name

/-- The content of a list, an object with the field `datatype` or an array of just its value. -/
def element? : Json → Option Json
  | .object members => do
    let named ← Json.named? members
    let value ← Json.field? "datatype" named
    value
  | .array [item] => some item
  | _ => none

/-- The type that a document stands for, if no more than `room` objects and arrays have to be open
at once. -/
def ofJson? : Nat → Json → Option DataType
  | _, .string units => TextUnit.text? units >>= ofName?
  | 0, _ => none
  | room + 1, .object [(units, content)] =>
    match TextUnit.text? units with
    | none => none
    | some "List" =>
      match room with
      | 0 => none
      | room + 1 =>
        match element? content with
        | none => none
        | some inner => (ofJson? room inner).map .list
    | some name =>
      match content with
      | .null => ofName? name
      | _ => none
  | _, _ => none

def parse? (text : String) : Option DataType := Json.parse? text >>= ofJson? Json.nestingLimit

def compact (t : DataType) : String := t.toJson.compact

end KernelDispatch.DataType
