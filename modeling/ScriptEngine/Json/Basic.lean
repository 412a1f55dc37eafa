import ScriptEngine.Decimal.Literal
import ScriptEngine.Decimal.Shortest

/-!
# JSON values

A JSON value keeps its numbers as written and the members of an object in order, repeated names
included. What a number means is decided where it is used: `Numeral.toNat?` reads natural numbers
and `Numeral.toFloat?` doubles. A value that no text can stand for still has its place, so that it
can be passed over.
-/

namespace ScriptEngine

/-- A JSON number as written. -/
structure Numeral where
  negative : Bool
  integer : List Digit
  /-- The digits behind the point, none if there is no point. -/
  fraction : List Digit
  exponent : Option Int
  deriving DecidableEq, Repr

/-- A JSON value. -/
inductive Json
  | null
  | bool (b : Bool)
  | number (n : Numeral)
  | string (s : String)
  /-- A string with half of a surrogate pair in it, or an object with such a name. -/
  | unpaired
  | array (items : List Json)
  | object (members : List (String × Json))
  deriving Repr, Inhabited

namespace Numeral

/-- The numeral of a natural number. -/
def ofNat (n : Nat) : Numeral :=
  ⟨false, if n = 0 then [0] else Decimal.digitsOf n, [], none⟩

/-- The numeral of an integer. -/
def ofInt (n : Int) : Numeral :=
  { ofNat n.natAbs with negative := n < 0 }

/-- Whether a numeral has neither a fraction nor an exponent. -/
def isInteger (n : Numeral) : Bool :=
  n.fraction.isEmpty && n.exponent.isNone

/-- The natural number below `bound` that a numeral without sign, point and exponent denotes. -/
def toNat? (bound : Nat) (n : Numeral) : Option Nat :=
  let value := Digit.value n.integer
  if n.isInteger && !n.negative && value < bound then some value else none

/-- Largest significand that is taken from the digits of a number. -/
def significandLimit : Nat := Nat.pow 2 64

/-- Takes digits into a significand as long as it stays below the limit, and returns the digits
left over. -/
def absorb : Nat → List Digit → Nat × List Digit
  | significand, [] => (significand, [])
  | significand, d :: ds =>
    if 10 * significand + d.val < significandLimit then absorb (10 * significand + d.val) ds
    else (significand, d :: ds)

/-- Largest power of ten among the doubles. -/
def largestPower : Nat := 308

/-- The double `10 ^ power`. -/
def powerOfTen (power : Nat) : Float :=
  Float.ofScientific 1 false power

/-- `x × 10 ^ exponent`, by one multiplication or by divisions; nothing if it is too large. At most
`steps` divisions reach zero or the range of the powers. -/
def scale? : Nat → Float → Int → Option Float
  | 0, _, _ => some 0
  | steps + 1, x, exponent =>
    if exponent.natAbs ≤ largestPower then
      if 0 ≤ exponent then
        let product := x * powerOfTen exponent.natAbs
        if product.isInf then none else some product
      else
        some (x / powerOfTen exponent.natAbs)
    else if x == 0 then some x
    else if 0 ≤ exponent then none
    else scale? steps (x / powerOfTen largestPower) (exponent + largestPower)

/-- The double that a numeral denotes: its leading digits as far as they fit a 64-bit word, times a
power of ten. Nothing if that is too large for a double. -/
def toFloat? (n : Numeral) : Option Float :=
  let (whole, skipped) := absorb 0 n.integer
  let (significand, ignored) := absorb whole n.fraction
  let exponent : Int := skipped.length - (n.fraction.length - ignored.length) + n.exponent.getD 0
  (scale? 4 (Float.ofNat significand) exponent).map fun x => if n.negative then -x else x

/-- Smallest and largest exponent, behind one leading digit, of a double that is written without
one. -/
def plainExponents : Int × Int := (-5, 15)

/-- The numeral of a finite double: the fewest digits that read back, and always a point or an
exponent. -/
def ofFloat (x : Float) : Numeral :=
  let d := Decimal.shortest .even x
  let exponent := d.scale - 1
  let orZero (digits : List Digit) : List Digit := if digits.isEmpty then [0] else digits
  if d.isZero then
    ⟨d.negative, [0], [0], none⟩
  else if plainExponents.1 ≤ exponent ∧ exponent ≤ plainExponents.2 then
    let integer := (List.range d.scale.toNat).map fun (i : Nat) => d.digit (d.scale - i)
    let fraction := (List.range d.fractionLength).map fun (i : Nat) => d.digit (-i)
    ⟨d.negative, orZero integer, orZero fraction, none⟩
  else
    ⟨d.negative, d.digits.take 1, d.digits.drop 1, some exponent⟩

end Numeral

namespace Json

/-- A double as JSON. Numbers that are not finite are `null`. -/
def ofFloat (x : Float) : Json :=
  if x.isFinite then .number (Numeral.ofFloat x) else .null

/-- A natural number as JSON. -/
def ofNat (n : Nat) : Json :=
  .number (Numeral.ofNat n)

/-- A text or `null`. -/
def ofString? : Option String → Json
  | some s => .string s
  | none => .null

/-- The value of the first member of a name. -/
def get? (name : String) : Json → Option Json
  | .object members => members.lookup name
  | _ => none

end Json

end ScriptEngine
