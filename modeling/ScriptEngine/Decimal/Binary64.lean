import ScriptEngine.Decimal.Basic

/-!
# Exact values of doubles

A finite double is `± significand × 2 ^ exponent`, and so a finite decimal. `Decimal.significant`
rounds that exact decimal to a number of digits, a half going to the even neighbour.
-/

namespace ScriptEngine

/-- The parts of a finite double: it is `± significand × 2 ^ exponent`. -/
structure Binary64 where
  negative : Bool
  significand : Nat
  exponent : Int
  /-- Whether the next smaller double is only half as far away as the next larger one. -/
  narrowBelow : Bool
  deriving DecidableEq, Repr

namespace Binary64

/-- Reads the parts off the bits of a finite double. -/
def ofFloat (x : Float) : Binary64 :=
  let bits : Nat := x.toBits.toNat
  let biased : Nat := bits / Nat.pow 2 52 % Nat.pow 2 11
  let fraction : Nat := bits % Nat.pow 2 52
  let negative := bits / Nat.pow 2 63 == 1
  if biased = 0 then
    ⟨negative, fraction, -1074, false⟩
  else
    ⟨negative, Nat.pow 2 52 + fraction, (biased : Int) - 1075, fraction = 0 && 1 < biased⟩

/-- The power of ten of the exact decimal. -/
def tenExponent (exponent : Int) : Int :=
  min exponent 0

/-- `n × 2 ^ exponent` in units of `10 ^ tenExponent exponent`. -/
def tenCoefficient (n : Nat) (exponent : Int) : Nat :=
  if 0 ≤ exponent then n * Nat.pow 2 exponent.toNat
  else n * Nat.pow 5 (-exponent).toNat

end Binary64

/-- `n / d` rounded to the nearest natural number, a half going to the even one. -/
def roundHalfEven (n d : Nat) : Nat :=
  let quotient := n / d
  let rest := n % d
  if 2 * rest < d ∨ 2 * rest = d ∧ quotient % 2 = 0 then quotient else quotient + 1

/-- The exact value of a finite double rounded to `count` digits, a half going to the even
neighbour. -/
def Decimal.significant (count : Nat) (x : Float) : Decimal :=
  let parts := Binary64.ofFloat x
  let exact := Binary64.tenCoefficient parts.significand parts.exponent
  let excess := (Decimal.digitsOf exact).length - count
  Decimal.ofCoefficient parts.negative (roundHalfEven exact (Nat.pow 10 excess))
    (Binary64.tenExponent parts.exponent + excess)

end ScriptEngine
