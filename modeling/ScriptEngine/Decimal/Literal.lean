import ScriptEngine.Decimal.Binary64
import ScriptEngine.Text.Blank

/-!
# Reading doubles

`Decimal.ofParts` is the number that written digits denote and `Decimal.toFloat` the double nearest
to it. `parseFloat?` reads a whole text: a sign, digits with or without a point, an exponent, or
the words for infinity and for no number.
-/

namespace ScriptEngine

/-- The digit of a character `0` … `9`. -/
def Digit.ofChar (c : Char) : Digit :=
  Fin.ofNat 10 (c.toNat - '0'.toNat)

/-- The value of a list of digits. -/
def Digit.value (digits : List Digit) : Nat :=
  digits.foldl (fun n d => 10 * n + d.val) 0

namespace Decimal

/-- The number with the given digits before and behind the point, times `10 ^ exponent`. -/
def ofParts (negative : Bool) (integer fraction : List Digit) (exponent : Int) : Decimal :=
  let all := integer ++ fraction
  let leading := (all.takeWhile (· = 0)).length
  let digits := dropTrailingZeros (all.drop leading)
  ⟨negative, digits, if digits.isEmpty then 0 else integer.length - leading + exponent⟩

/-- Largest scale of a decimal that a double comes near to. -/
def largestScale : Int := 309

/-- Smallest scale of a decimal that does not round to zero. -/
def smallestScale : Int := -323

/-- The double nearest to a decimal number, infinity if it is too large. -/
def toFloat (x : Decimal) : Float :=
  let exponent := x.scale - x.digits.length
  let magnitude : Float :=
    if x.digits.isEmpty || x.scale < smallestScale then 0
    else if largestScale < x.scale then 1.0 / 0.0
    else if 0 ≤ exponent then Float.ofScientific (Digit.value x.digits) false exponent.toNat
    else Float.ofScientific (Digit.value x.digits) true (-exponent).toNat
  if x.negative then -magnitude else magnitude

end Decimal

/-- The digits in front, which may be none, and the rest. -/
def Digit.run (cs : List Char) : List Digit × List Char :=
  ((cs.takeWhile Char.isDigit).map Digit.ofChar, cs.dropWhile Char.isDigit)

/-- A sign in front, if any: whether it is negative, and the rest. -/
def signPart (cs : List Char) : Bool × List Char :=
  match cs with
  | '-' :: rest => (true, rest)
  | '+' :: rest => (false, rest)
  | _ => (false, cs)

/-- The exponent that makes up a text: zero if the text is empty. -/
def exponentValue? (cs : List Char) : Option Int :=
  match cs with
  | [] => some 0
  | mark :: rest =>
    let (negative, body) := signPart rest
    match Digit.run body with
    | (d :: digits, []) =>
      let value : Int := Digit.value (d :: digits)
      if mark = 'e' ∨ mark = 'E' then some (if negative then -value else value) else none
    | _ => none

/-- The decimal number without sign that a text denotes. At least one digit stands beside the
point. -/
def unsignedDecimal? (negative : Bool) (cs : List Char) : Option Decimal := do
  let (integer, afterInteger) := Digit.run cs
  let (fraction, left) := match afterInteger with
    | '.' :: rest => Digit.run rest
    | _ => ([], afterInteger)
  if integer.isEmpty && fraction.isEmpty then
    none
  else
    return Decimal.ofParts negative integer fraction (← exponentValue? left)

/-- Reads a text that is a double. -/
def parseFloat? (s : String) : Option Float :=
  let (negative, body) := signPart s.toList
  match String.ofList (body.map Char.toLower) with
  | "inf" | "infinity" => some (if negative then -1.0 / 0.0 else 1.0 / 0.0)
  | "nan" => some (0.0 / 0.0)
  | _ => (unsignedDecimal? negative body).map Decimal.toFloat

end ScriptEngine
