import ScriptEngine.Expression.Datum
import ScriptEngine.Text.LetterCase
import ScriptEngine.Text.Search

/-!
# Functions of expressions

`Datum.call` applies a function by name to evaluated arguments, the subject of `x.f()` being the
first one, and `Datum.property?` reads a property.
-/

namespace ScriptEngine.Datum

/-- The largest number of a reference. -/
def largestReference : Nat := 4294967295

/-- The reference with the number that a datum is. -/
def makeReference : Datum → Except EvaluationDetail Datum
  | .integer n =>
    if 0 ≤ n.toInt ∧ n.toInt ≤ largestReference then
      .ok (.reference (UInt32.ofNat n.toInt.toNat))
    else
      .error (.referenceRange (toString n.toInt))
  | .float x =>
    if x.floor == x && 0 ≤ x && x ≤ Float.ofNat largestReference then .ok (.reference x.toUInt32)
    else .error (.referenceRange (plainNumber x))
  | _ => .error .unspecified

/-- The integer part of a double, if it fits into an integer; zero for what is no number. -/
def truncate? (x : Float) : Option Int64 :=
  let limit := Float.scaleB 1 63
  if limit < x || x < -limit then none else some x.toInt64

/-- The values of the functions that cannot fail in a way of their own. -/
def result? : String → List Datum → Option Datum
  | "reference_id", [.reference id] => some (.integer (Int64.ofNat id.toNat))
  | "is_null", [.reference id] => some (.truth (id == 0))
  | "len", [.text s] => some (.integer (Int64.ofNat s.length))
  | "to_upper", [.text s] => some (.text (Text.toUpper s))
  | "to_lower", [.text s] => some (.text (Text.toLower s))
  | "to_upper", [.character c] => some (.character (Text.singleForm (Text.upperForm c) c))
  | "to_lower", [.character c] => some (.character (Text.singleForm (Text.lowerForm c) c))
  | "contains", [.text s, .text t] => some (.truth (Text.contains s t))
  | "contains", [.text s, .character c] => some (.truth (s.toList.contains c))
  | "starts_with", [.text s, .text t] => some (.truth (Text.startsWith s t))
  | "ends_with", [.text s, .text t] => some (.truth (Text.endsWith s t))
  | "abs", [.integer n] => if n == Int64.minValue then none else some (.integer n.abs)
  | "abs", [.float x] => some (.float x.abs)
  | "floor", [.float x] => some (.float x.floor)
  | "ceiling", [.float x] => some (.float x.ceil)
  | "round", [.float x] => some (.float x.round)
  | "sqrt", [.float x] => some (.float x.sqrt)
  | "is_nan", [.float x] => some (.truth x.isNaN)
  | "to_int", [.integer n] => some (.integer n)
  | "to_int", [.character c] => some (.integer (Int64.ofNat c.toNat))
  | "to_int", [.float x] => (truncate? x).map .integer
  | "to_float", [.integer n] => some (.float n.toFloat)
  | "to_float", [.float x] => some (.float x)
  | "to_string", [datum] => datum.display?.map .text
  | "type_of", [datum] => some (.text datum.typeName)
  | _, _ => none

/-- The value of a function. -/
def call (function : String) (arguments : List Datum) : Except EvaluationDetail Datum :=
  match function, arguments with
  | "reference", [datum] => makeReference datum
  | _, _ =>
    match result? function arguments with
    | some datum => .ok datum
    | none => .error .unspecified

/-- The property of a datum with the given name. -/
def property? (datum : Datum) (name : String) : Option Datum :=
  match name, datum with
  | "len", .text _ => result? "len" [datum]
  | "floor", .float _ | "ceiling", .float _ | "round", .float _ | "is_nan", .float _ =>
    result? name [datum]
  | _, _ => none

end ScriptEngine.Datum
