import ScriptEngine.Json.Fields
import ScriptEngine.Value.Basic

/-!
# Values as JSON

A value is written as an object with its type and, unless it is nothing, its content. It is read
from such an object, in which members of other names are ignored, or from an array of the two.
-/

namespace ScriptEngine.Value

/-- A value as JSON. -/
def toJson : Value → Json
  | .invalid => .object [("type", .string "invalid")]
  | .numeric x => .object [("type", .string "numeric"), ("value", .ofFloat x)]
  | .string s => .object [("type", .string "string"), ("value", .string s)]
  | .reference id => .object [("type", .string "reference"), ("value", .ofNat id.toNat)]

/-- The value of a type with a content. -/
def ofContent? (type : String) (content : Json) : Option Value :=
  match type, content with
  | "invalid", .null => some .invalid
  | "numeric", .number n => n.toFloat?.map .numeric
  | "string", .string s => some (.string s)
  | "reference", .number n => (n.toNat? UInt32.size).map fun id => .reference (UInt32.ofNat id)
  | _, _ => none

/-- The values of all members of a name. -/
def members (name : String) (object : List (String × Json)) : List Json :=
  (object.filter (·.1 == name)).map (·.2)

/-- Reads a value. Its type occurs once and its content at most once. -/
def ofJson? : Json → Option Value
  | .object object =>
    match members "type" object, members "value" object with
    | [type], [] => if type.caseName? Json.isNull = some "invalid" then some .invalid else none
    | [type], [content] => do ofContent? (← type.caseName? Json.isNull) content
    | _, _ => none
  | .array [type, content] => do ofContent? (← type.caseName? Json.isNull) content
  | _ => none

end ScriptEngine.Value
