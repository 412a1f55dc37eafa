import ScriptEngine.Fault

/-!
# What expressions compute with

Expressions know more kinds of data than scripts do: integers beside doubles, single characters,
truth values, and lists and records, which no script value can hold. `Datum.ofValue` brings a local
in and `Datum.toValue` takes a result out.
-/

namespace ScriptEngine

/-- A datum that an expression computes with. -/
inductive Datum
  | unit
  | truth (b : Bool)
  | integer (n : Int64)
  | float (x : Float)
  | character (c : Char)
  | text (s : String)
  | reference (id : UInt32)
  | array
  | record
  deriving DecidableEq, Repr

namespace Datum

/-- The name of the kind of a datum. -/
def typeName : Datum → String
  | .unit => "()"
  | .truth _ => "bool"
  | .integer _ => "i64"
  | .float _ => "f64"
  | .character _ => "char"
  | .text _ => "string"
  | .reference _ => "Reference"
  | .array => "array"
  | .record => "map"

/-- The datum of a script value. -/
def ofValue : Value → Datum
  | .invalid => .unit
  | .numeric x => .float x
  | .string s => .text s
  | .reference id => .reference id

/-- The script value of a datum. -/
def toValue : Datum → Except EvaluationDetail Value
  | .unit => .ok .invalid
  | .truth b => .ok (.numeric (if b then 1 else 0))
  | .integer n => .ok (.numeric n.toFloat)
  | .float x => .ok (.numeric x)
  | .character c => .ok (.string (String.singleton c))
  | .text s => .ok (.string s)
  | .reference id => .ok (.reference id)
  | .array => .error (.notPassable "array")
  | .record => .error (.notPassable "map")

/-- The number that a datum is, as a double. -/
def number? : Datum → Option Float
  | .integer n => some n.toFloat
  | .float x => some x
  | _ => none

/-- The text that a text or a character is. -/
def letters? : Datum → Option String
  | .text s => some s
  | .character c => some (String.singleton c)
  | _ => none

/-- Doubles of a larger magnitude are written with an exponent: the single precision number
nearest to `10 ^ 13`. -/
def largestPlain : Float := 9999999827968

/-- Doubles of a smaller magnitude are written with an exponent: the single precision number
nearest to `10 ^ -13`. -/
def smallestPlain : Float := Float.scaleB 14757395 (-67)

/-- A finite double other than zero with an exponent, in the fewest digits that read back. -/
def exponentText (x : Float) : String :=
  let d := Decimal.shortest .up x
  let sign := if d.negative then "-" else ""
  let first := String.singleton (Digit.toChar (d.digits.headD 0))
  let others := String.ofList (d.digits.tail.map Digit.toChar)
  let fraction := if others.isEmpty then "" else "." ++ others
  sign ++ first ++ fraction ++ "e" ++ toString (d.scale - 1)

/-- A double as a part of a text. A whole number keeps one zero behind the point. -/
def floatText (x : Float) : String :=
  if x == 0 then "0.0"
  else if x.isNaN || x.isInf then plainNumber x
  else if largestPlain < x.abs || x.abs < smallestPlain then exponentText x
  else if x.floor == x then plainNumber x ++ ".0"
  else plainNumber x

/-- A datum as a part of a text. -/
def display? : Datum → Option String
  | .unit => some ""
  | .truth b => some (if b then "true" else "false")
  | .integer n => some (toString n.toInt)
  | .float x => some (floatText x)
  | .character c => some (String.singleton c)
  | .text s => some s
  | .reference _ => some "Reference"
  | .array | .record => none

end Datum

end ScriptEngine
