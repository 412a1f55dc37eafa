import ScriptEngine.Decimal.Basic
import ScriptEngine.NumberFormat.Locale

/-!
# Writing the digits of a number

The layouts shared by all number formats: fixed decimals with or without groups, and exponents.
Texts are lists of characters until the format is complete.
-/

namespace ScriptEngine.NumberFormat

/-- Digits between two group separators. -/
def groupSize : Nat := 3

/-- The digits of an integer with the separator after every `groupSize` digits counted from the
right, and none in front. -/
def groupInteger (separator : List Char) : List Char → List Char
  | [] => []
  | d :: ds =>
    if ds.length % groupSize = 0 && !ds.isEmpty then d :: separator ++ groupInteger separator ds
    else d :: groupInteger separator ds

/-- A number with exactly `decimals` digits after the point. -/
def fixedText (locale : Locale) (grouped : Bool) (decimals : Nat) (x : Decimal) : List Char :=
  let integer :=
    if grouped then groupInteger locale.groupSeparator.toList x.integerText else x.integerText
  if decimals = 0 then integer
  else integer ++ locale.decimalSeparator.toList ++ x.fractionText decimals

/-- Fills the slots of a shape around the given digits. -/
def fill (locale : Locale) (digits : List Char) (shape : List Slot) : List Char :=
  shape.flatMap fun
    | .digits => digits
    | .minus => locale.negativeSign.toList
    | .currency => locale.currencySymbol.toList
    | .percent => locale.percentSymbol.toList
    | .char c => [c]

/-- A natural number in at least `width` decimal digits. -/
def padded (width n : Nat) : List Char :=
  let digits := if n = 0 then ['0'] else (Decimal.digitsOf n).map Digit.toChar
  List.replicate (width - digits.length) '0' ++ digits

/-- An exponent: its mark, its sign, and at least `width` digits. A positive sign is written only
when asked for. -/
def exponentText (locale : Locale) (mark : Char) (plus : Bool) (width : Nat) (e : Int) :
    List Char :=
  let sign :=
    if e < 0 then locale.negativeSign.toList
    else if plus then locale.positiveSign.toList
    else []
  mark :: sign ++ padded width e.natAbs

end ScriptEngine.NumberFormat
