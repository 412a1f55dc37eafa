import ScriptEngine.Decimal.Literal
import ScriptEngine.NumberFormat.Layout

/-!
# Standard number formats

A standard format is a letter and an optional precision: currency, scientific, fixed, general,
grouped number, percent, and round trip.
-/

namespace ScriptEngine.NumberFormat

/-- What the letter of a standard format asks for. -/
inductive Standard
  | currency
  | scientific
  | fixed
  | general
  | number
  | percent
  | roundTrip
  deriving DecidableEq, Repr

/-- The standard format of a letter in either case. -/
def Standard.ofLetter? (letter : Char) : Option Standard :=
  match letter.toUpper with
  | 'C' => some .currency
  | 'E' => some .scientific
  | 'F' => some .fixed
  | 'G' => some .general
  | 'N' => some .number
  | 'P' => some .percent
  | 'R' => some .roundTrip
  | _ => none

/-- Digits kept of a double unless a format asks for more. -/
def usualDigits : Nat := 15

/-- Digits that tell any two doubles apart. -/
def fullDigits : Nat := 17

/-- Digits taken from a double for a format with the given precision. -/
def Standard.digits (kind : Standard) (precision : Option Nat) : Nat :=
  match kind, precision with
  | .scientific, some p => if 14 < p then fullDigits else usualDigits
  | .general, some p => if 15 < p then fullDigits else usualDigits
  | _, _ => usualDigits

/-- The negative sign in front of a negative number. -/
def signed (locale : Locale) (x : Decimal) (text : List Char) : List Char :=
  if x.negative then locale.negativeSign.toList ++ text else text

/-- One digit before the point, `count` in all, and an exponent of at least three digits. -/
def scientificText (locale : Locale) (mark : Char) (count : Nat) (x : Decimal) : List Char :=
  let point := if count = 1 then [] else locale.decimalSeparator.toList
  x.digitRun x.scale 1 ++ point ++ x.digitRun (x.scale - 1) (count - 1) ++
    exponentText locale mark true 3 (if x.isZero then 0 else x.scale - 1)

/-- All digits and no more, with an exponent only when the point would stand more than `count`
digits behind the first one or more than three zeros before it. -/
def generalText (locale : Locale) (mark : Char) (count : Nat) (x : Decimal) : List Char :=
  let positional (y : Decimal) : List Char :=
    if y.fractionLength = 0 then y.integerText
    else y.integerText ++ locale.decimalSeparator.toList ++ y.fractionText y.fractionLength
  if (count : Int) < x.scale ∨ x.scale < -3 then
    positional { x with scale := 1 } ++ exponentText locale mark true 2 (x.scale - 1)
  else
    positional x

/-- A number rounded to `decimals` places, in the shape that its sign asks for. -/
def shaped (locale : Locale) (positive negative : List Slot) (decimals : Nat) (x : Decimal) :
    List Char :=
  let rounded := x.round (x.scale + decimals)
  fill locale (fixedText locale true decimals rounded)
    (if rounded.negative then negative else positive)

/-- Fifteen digits if they read back as the same double, else seventeen. -/
def roundTripDigits (x : Float) : Nat :=
  if (Decimal.significant usualDigits x).toFloat == x then usualDigits else fullDigits

/-- Writes a finite double in a standard format. The case of the letter is that of the exponent
mark. -/
def Standard.format (kind : Standard) (lowerCase : Bool) (precision : Option Nat) (locale : Locale)
    (x : Float) : List Char :=
  let mark := if lowerCase then 'e' else 'E'
  let number := Decimal.significant (kind.digits precision) x
  match kind with
  | .currency =>
    shaped locale locale.currencyPositive locale.currencyNegative
      (precision.getD locale.currencyDecimals) number
  | .fixed =>
    let decimals := precision.getD locale.numberDecimals
    let rounded := number.round (number.scale + decimals)
    signed locale rounded (fixedText locale false decimals rounded)
  | .number =>
    shaped locale [.digits] locale.numberNegative (precision.getD locale.numberDecimals) number
  | .percent =>
    shaped locale locale.percentPositive locale.percentNegative
      (precision.getD locale.percentDecimals) (number.shift 2)
  | .scientific =>
    let count : Nat := precision.getD 6 + 1
    let rounded := number.round count
    signed locale rounded (scientificText locale mark count rounded)
  | .general =>
    let count : Nat := match precision with
      | some (p + 1) => p + 1
      | _ => usualDigits
    let rounded := number.round count
    signed locale rounded (generalText locale mark count rounded)
  | .roundTrip =>
    let count : Nat := roundTripDigits x
    let rounded := (Decimal.significant count x).round count
    signed locale rounded (generalText locale mark count rounded)

end ScriptEngine.NumberFormat
