import ScriptEngine.Decimal.Remainder
import ScriptEngine.Expression.Basic
import ScriptEngine.Text.Search

/-!
# What operators compute

Arithmetic is done in doubles, also between integers. Two doubles compare as equal when they differ
by no more than the last bit of the larger one; integers, texts, characters and truth values compare
exactly, and data of different kinds are unequal and in no order.
-/

namespace ScriptEngine

namespace Comparison

/-- Whether a comparison holds between things in a given order. -/
def holds (comparison : Comparison) (order : Ordering) : Bool :=
  match comparison with
  | .equal => order == .eq
  | .unequal => order != .eq
  | .less => order == .lt
  | .lessOrEqual => order != .gt
  | .greater => order == .gt
  | .greaterOrEqual => order != .lt

/-- The relative difference up to which doubles count as equal, `2 ^ -52`. -/
def tolerance : Float := Float.scaleB 1 (-52)

/-- The larger of two numbers, or the one that is a number. -/
def larger (x y : Float) : Float :=
  if x.isNaN then y else if y.isNaN then x else if x < y then y else x

/-- The magnitude relative to which two doubles are compared: that of the larger one, or one if
their product is zero. -/
def scaleOf (x y : Float) : Float :=
  if x * y == 0 then 1 else larger x.abs y.abs

/-- Whether a comparison holds between doubles, by their difference relative to their scale. A scale
of zero, as between zero and what is no number, makes them equal. -/
def holdsBetween (comparison : Comparison) (x y : Float) : Bool :=
  let scale := scaleOf x y
  if scale == 0 then comparison.holds .eq
  else match comparison with
  | .equal => (x - y).abs / scale ≤ tolerance
  | .unequal => (x - y).abs / scale > tolerance
  | .greater => (x - y) / scale > tolerance
  | .greaterOrEqual => (x - y) / scale > -tolerance
  | .less => (y - x) / scale > tolerance
  | .lessOrEqual => (y - x) / scale > -tolerance

/-- The order of two texts by code points. -/
def textOrder (s t : String) : Ordering :=
  if s = t then .eq else if s < t then .lt else .gt

/-- A comparison of two data of one kind other than numbers, texts and characters. -/
def sameKind? (comparison : Comparison) : Datum → Datum → Option Bool
  | .unit, .unit => some (comparison == .equal)
  | .truth a, .truth b => some (comparison.holds (compare a.toNat b.toNat))
  | .reference a, .reference b =>
    match comparison with
    | .equal => some (a == b)
    | .unequal => some (a != b)
    | _ => none
  | _, _ => none

/-- A comparison of two data; nothing where it is not defined. -/
def result? (comparison : Comparison) (a b : Datum) : Option Bool :=
  match a, b with
  | .integer m, .integer n => some (comparison.holds (compare m.toInt n.toInt))
  | _, _ =>
    match a.number?, b.number?, a.letters?, b.letters? with
    | some x, some y, _, _ => some (comparison.holdsBetween x y)
    | _, _, some s, some t => some (comparison.holds (textOrder s t))
    | _, _, _, _ =>
      if a.typeName = b.typeName then comparison.sameKind? a b else some (comparison == .unequal)

end Comparison

namespace Arithmetic

/-- An operator on doubles. -/
def onFloats (operator : Arithmetic) (x y : Float) : Float :=
  match operator with
  | .add => x + y
  | .subtract => x - y
  | .multiply => x * y
  | .divide => x / y
  | .modulo => remainder x y
  | .power => x.pow y

/-- Two data put together as texts, one of which is a text or both of which are characters. -/
def join? (a b : Datum) : Option String :=
  match a, b with
  | .text _, _ | _, .text _ | .character _, .character _ => do
    return (← a.display?) ++ (← b.display?)
  | _, _ => none

/-- An operator on two data: on numbers, and addition also on texts. -/
def result? (operator : Arithmetic) (a b : Datum) : Option Datum :=
  match a.number?, b.number? with
  | some x, some y => some (.float (operator.onFloats x y))
  | _, _ => if operator = .add then (join? a b).map .text else none

end Arithmetic

namespace BitOperator

/-- An operator on truth values. -/
def onTruth (operator : BitOperator) (a b : Bool) : Bool :=
  match operator with
  | .conjunction => a && b
  | .disjunction => a || b
  | .exclusive => a != b

/-- An operator on the bits of integers. -/
def onIntegers (operator : BitOperator) (m n : Int64) : Int64 :=
  match operator with
  | .conjunction => m &&& n
  | .disjunction => m ||| n
  | .exclusive => m ^^^ n

/-- An operator on two data. -/
def result? (operator : BitOperator) (a b : Datum) : Option Datum :=
  match a, b with
  | .truth a, .truth b => some (.truth (operator.onTruth a b))
  | .integer m, .integer n => some (.integer (operator.onIntegers m n))
  | _, _ => none

end BitOperator

namespace Shift

/-- A shift by some places. Bits that leave the word are lost, and from the left the sign comes
in. -/
def byPlaces (shift : Shift) (n : Int64) (places : Nat) : Int64 :=
  match shift with
  | .left => Int64.ofInt (n.toInt * Int.pow 2 (min places 64))
  | .right => Int64.ofInt (n.toInt.fdiv (Int.pow 2 (min places 64)))

/-- The shift the other way. -/
def opposite : Shift → Shift
  | .left => .right
  | .right => .left

/-- A shift of two data. A negative number of places shifts the other way. -/
def result? (shift : Shift) (a b : Datum) : Option Datum :=
  match a, b with
  | .integer m, .integer n =>
    let direction := if n < 0 then shift.opposite else shift
    some (.integer (direction.byPlaces m n.toInt.natAbs))
  | _, _ => none

end Shift

/-- Whether a text or a character occurs in a text. -/
def Datum.occursIn? (part whole : Datum) : Option Bool :=
  match whole, part.letters? with
  | .text s, some pattern => some (Text.contains s pattern)
  | _, _ => none

/-- An operator in front of a datum. -/
def UnaryOperator.result? (operator : UnaryOperator) (a : Datum) : Option Datum :=
  match operator, a with
  | .minus, .integer n => if n == Int64.minValue then none else some (.integer (-n))
  | .minus, .float x => some (.float (-x))
  | .plus, .integer n => some (.integer n)
  | .plus, .float x => some (.float x)
  | .not, .truth b => some (.truth !b)
  | _, _ => none

end ScriptEngine
