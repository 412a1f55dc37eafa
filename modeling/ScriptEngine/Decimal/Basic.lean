/-!
# Decimal numbers

A `Decimal` is a sign, a list of digits and a scale: `± 0.d₁d₂d₃… × 10 ^ scale`. A number is
normalized when neither its first nor its last digit is zero; zero has no digits. `Decimal.round`
keeps a number of leading digits and sends a half away from zero.
-/

namespace ScriptEngine

/-- A decimal digit. -/
abbrev Digit := Fin 10

/-- Digits are written as numerals. -/
instance Digit.neZero : @NeZero Nat Zero.ofOfNat0 10 := ⟨by decide⟩

/-- The character `0` … `9` of a digit. -/
def Digit.toChar (d : Digit) : Char :=
  Char.ofNat ('0'.toNat + d.val)

/-- The number `± 0.d₁d₂d₃… × 10 ^ scale`. -/
structure Decimal where
  negative : Bool
  digits : List Digit
  scale : Int
  deriving DecidableEq, Repr

namespace Decimal

/-- Zero without a sign. -/
def zero : Decimal :=
  ⟨false, [], 0⟩

/-- Whether a normalized number is zero. -/
def isZero (x : Decimal) : Bool :=
  x.digits.isEmpty

/-- First and last digit differ from zero, and zero has scale zero. -/
def Normalized (x : Decimal) : Prop :=
  x.digits.head? ≠ some 0 ∧ x.digits.getLast? ≠ some 0 ∧ (x.digits = [] → x.scale = 0)

/-- The digits of `n` in front of `rest`, at most `fuel` of them. -/
def digitsOnto : Nat → Nat → List Digit → List Digit
  | 0, _, rest => rest
  | fuel + 1, n, rest => if n = 0 then rest else digitsOnto fuel (n / 10) (Fin.ofNat 10 n :: rest)

/-- The decimal digits of a natural number, none for zero. -/
def digitsOf (n : Nat) : List Digit :=
  digitsOnto n n []

/-- A list of digits without the zeros at its end. -/
def dropTrailingZeros : List Digit → List Digit
  | [] => []
  | d :: ds =>
    match dropTrailingZeros ds with
    | [] => if d = 0 then [] else [d]
    | kept => d :: kept

/-- The number `coefficient × 10 ^ exponent` with a sign, normalized. -/
def ofCoefficient (negative : Bool) (coefficient : Nat) (exponent : Int) : Decimal :=
  let digits := digitsOf coefficient
  ⟨negative, dropTrailingZeros digits, if coefficient = 0 then 0 else digits.length + exponent⟩

/-- One unit more in the last place, without the zeros that the carry leaves at the end; nothing
when the carry runs through all digits. -/
def increment : List Digit → Option (List Digit)
  | [] => none
  | d :: ds =>
    match increment ds with
    | some kept => some (d :: kept)
    | none => if d = 9 then none else some [d + 1]

/-- The same sign and scale with other digits; zero when there are none. -/
def withDigits (x : Decimal) (digits : List Digit) : Decimal :=
  if digits.isEmpty then zero else { x with digits }

/-- Keeps `places` leading digits. A half goes away from zero, and a result of zero has no sign. -/
def round (x : Decimal) (places : Int) : Decimal :=
  if places < 0 then
    zero
  else
    let kept := x.digits.take places.toNat
    match x.digits[places.toNat]? with
    | some next =>
      if 5 ≤ next then
        match increment kept with
        | some digits => { x with digits }
        | none => { x with digits := [1], scale := x.scale + 1 }
      else
        x.withDigits (dropTrailingZeros kept)
    | none => x.withDigits (dropTrailingZeros kept)

/-- Multiplies by a power of ten. -/
def shift (x : Decimal) (places : Int) : Decimal :=
  { x with scale := x.scale + places }

/-- The digit of weight `10 ^ (position - 1)`: position 1 is the units, 0 the tenths. -/
def digit (x : Decimal) (position : Int) : Digit :=
  if x.scale < position then 0 else x.digits.getD (x.scale - position).toNat 0

/-- The digits at `count` positions from `position` downwards. -/
def digitRun (x : Decimal) (position : Int) (count : Nat) : List Char :=
  (List.range count).map fun (i : Nat) => (x.digit (position - i)).toChar

/-- The digits before the point, without superfluous zeros in front. -/
def integerText (x : Decimal) : List Char :=
  if 0 < x.scale then x.digitRun x.scale x.scale.toNat else ['0']

/-- The first `count` digits after the point. -/
def fractionText (x : Decimal) (count : Nat) : List Char :=
  x.digitRun 0 count

/-- How many digits stand after the point up to the last one that matters. -/
def fractionLength (x : Decimal) : Nat :=
  (x.digits.length - x.scale).toNat

end Decimal

end ScriptEngine
