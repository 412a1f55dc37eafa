import ScriptEngine.Json.Basic

/-!
# Fields of JSON objects

Readers for objects with fixed fields. A field occurs at most once, other members are ignored, and
each reader fails with `none`. An object may also be written as the array of its fields, and the
name of a case as an object around it.
-/

namespace ScriptEngine.Json

/-- The value of a field that may be missing. -/
def optional? (name : String) : Json → Option (Option Json)
  | .object members =>
    match members.filter (·.1 == name) with
    | [] => some none
    | [(_, value)] => some (some value)
    | _ => none
  | _ => none

/-- The value of a field that must be there. -/
def required? (name : String) (j : Json) : Option Json := do
  match ← j.optional? name with
  | some value => some value
  | none => none

/-- An object for an array that lists the values of the given fields in order, perhaps not all of
them. Anything else stays as it is. -/
def named (fields : List String) : Json → Json
  | .array items =>
    if items.length ≤ fields.length then .object (fields.zip items) else .array items
  | j => j

/-- The text that a value is. -/
def string? : Json → Option String
  | .string s => some s
  | _ => none

/-- The items of an array. -/
def items? : Json → Option (List Json)
  | .array items => some items
  | _ => none

/-- The natural number below `2 ^ 64` that a value is. -/
def nat? : Json → Option Nat
  | .number n => n.toNat? (Nat.pow 2 64)
  | _ => none

/-- Whether a value is `null`. -/
def isNull : Json → Bool
  | .null => true
  | _ => false

/-- Whether a value is `null` or an object without members. -/
def isVoid : Json → Bool
  | .null | .object [] => true
  | _ => false

/-- The name of a case without content: a text, or an object whose one member has the name and
nothing as value. -/
def caseName? (isNothing : Json → Bool) : Json → Option String
  | .string name => some name
  | .object [(name, content)] => if isNothing content then some name else none
  | _ => none

/-- What a value denotes, where `null` and a missing field denote nothing. -/
def nullable? {α : Type} (read : Json → Option α) : Option Json → Option (Option α)
  | none | some .null => some none
  | some value => (read value).map some

end ScriptEngine.Json
