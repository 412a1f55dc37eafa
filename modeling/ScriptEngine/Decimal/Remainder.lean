import ScriptEngine.Decimal.Binary64

/-!
# Remainders of doubles

`remainder x y` is `x - n * y` for the integer `n` that is `x / y` rounded toward zero, computed
exactly. It has the sign of `x`.
-/

namespace ScriptEngine

/-- The remainder of two finite doubles, the second of which is not zero. Over the smaller of the
two exponents both are integers, and the remainder of these has at most fifty-three bits. -/
def finiteRemainder (x y : Float) : Float :=
  let a := Binary64.ofFloat x
  let b := Binary64.ofFloat y
  let exponent := min a.exponent b.exponent
  let dividend := a.significand * Nat.pow 2 (a.exponent - exponent).toNat
  let divisor := b.significand * Nat.pow 2 (b.exponent - exponent).toNat
  let magnitude := (Float.ofNat (dividend % divisor)).scaleB exponent
  if a.negative then -magnitude else magnitude

/-- The remainder of two doubles. -/
def remainder (x y : Float) : Float :=
  if x.isNaN || y.isNaN || x.isInf || y == 0 then 0.0 / 0.0
  else if y.isInf then x
  else finiteRemainder x y

end ScriptEngine
