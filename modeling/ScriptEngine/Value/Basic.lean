import ScriptEngine.Decimal.Shortest
import ScriptEngine.Text.Blank

/-!
# Script values and their types

A value is nothing, a number, a text, or a reference to an object of the host. The type `multi`
accepts every value; each other type accepts the values of its own kind.
-/

namespace ScriptEngine

/-- The type of a parameter, a result or a value. -/
inductive DataType
  | invalid
  | numeric
  | string
  | reference
  /-- Any value. -/
  | multi
  deriving DecidableEq, Repr

/-- A value of a script. -/
inductive Value
  /-- The absence of a value. -/
  | invalid
  | numeric (x : Float)
  | string (s : String)
  /-- The number of an object of the host; zero refers to none. -/
  | reference (id : UInt32)
  deriving DecidableEq, Repr

namespace DataType

/-- The name of a type. -/
def name : DataType → String
  | .invalid => "invalid"
  | .numeric => "numeric"
  | .string => "string"
  | .reference => "reference"
  | .multi => "multi"

/-- All types. -/
def all : List DataType :=
  [.invalid, .numeric, .string, .reference, .multi]

/-- How a type is spelled for look-up: case and outer blanks do not matter. -/
def spelling (text : String) : String :=
  Text.lower (Text.trim text)

/-- The type that a text names. -/
def parse? (text : String) : Option DataType :=
  match spelling text with
  | "invalid" | "void" => some .invalid
  | "numeric" | "number" => some .numeric
  | "string" => some .string
  | "reference" | "ref" => some .reference
  | "multi" => some .multi
  | _ => none

end DataType

namespace Value

/-- The type of a value. It is never `multi`. -/
def dataType : Value → DataType
  | .invalid => .invalid
  | .numeric _ => .numeric
  | .string _ => .string
  | .reference _ => .reference

/-- The value that stands in for a missing one of a type. -/
def zero : DataType → Value
  | .invalid => .invalid
  | .numeric | .multi => .numeric 0
  | .string => .string ""
  | .reference => .reference 0

/-- The number that a value is. -/
def number? : Value → Option Float
  | .numeric x => some x
  | _ => none

/-- The text that a value is. -/
def string? : Value → Option String
  | .string s => some s
  | _ => none

/-- The reference that a value is. -/
def reference? : Value → Option UInt32
  | .reference id => some id
  | _ => none

/-- Whether a value is the absence of one. -/
def isInvalid : Value → Bool
  | .invalid => true
  | _ => false

/-- Whether a value counts as true. Only nothing, zero, the empty text and the null reference do
not. -/
def isTruthy : Value → Bool
  | .invalid => false
  | .numeric x => x != 0
  | .string s => !s.isEmpty
  | .reference id => id != 0

end Value

/-- Whether a value can stand where a type is asked for. -/
def DataType.accepts (t : DataType) (v : Value) : Bool :=
  t == .multi || t == v.dataType

/-- Whether a value can be the result of a call of which a type is expected. Nothing is a result
only where nothing is expected. -/
def DataType.admits (t : DataType) (v : Value) : Bool :=
  t.accepts v && !(v.isInvalid && t != .invalid)

/-- A value as a result of the expected type: itself, or the zero value of the type. -/
def Value.coerce (expected : DataType) (v : Value) : Value :=
  if expected.admits v then v else .zero expected

/-- A finite double in the fewest digits that read back, without an exponent. Zero has no sign. -/
def plainDecimal (x : Float) : List Char :=
  let d := Decimal.shortest .up x
  let sign := if d.negative && !d.isZero then ['-'] else []
  let fraction :=
    if d.fractionLength = 0 then [] else '.' :: d.fractionText d.fractionLength
  sign ++ d.integerText ++ fraction

/-- The text of a double. -/
def plainNumber (x : Float) : String :=
  if x.isNaN then "NaN"
  else if x.isInf then (if 0 < x then "inf" else "-inf")
  else String.ofList (plainDecimal x)

/-- The upper case hexadecimal digit of a number below sixteen. -/
def upperHexDigit (n : Nat) : Char :=
  if n < 10 then Char.ofNat ('0'.toNat + n) else Char.ofNat ('A'.toNat + (n - 10))

/-- Eight hexadecimal digits. -/
def hexWord (n : Nat) : String :=
  String.ofList ((List.range 8).map fun i => upperHexDigit (n / Nat.pow 16 (7 - i) % 16))

/-- The text of a value as a script shows it. -/
def Value.display : Value → String
  | .invalid => ""
  | .numeric x => plainNumber x
  | .string s => s
  | .reference id => hexWord id.toNat

end ScriptEngine
