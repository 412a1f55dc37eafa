import ScriptEngine.Decimal.Binary64

/-!
# The fewest digits that read back

Every real number between the two midpoints around a double rounds to it, a midpoint itself only
when the significand is even. `Decimal.shortest` takes the coarsest decimal grid with a point in
that interval, and of two such points next to the value the nearer one.
-/

namespace ScriptEngine

/-- Where a value goes that lies exactly between two shortest candidates. -/
inductive Tie
  | up
  | even
  deriving DecidableEq, Repr

/-- The interval of numbers that round to a double, and the double itself, all in one unit. -/
structure RoundingInterval where
  low : Nat
  value : Nat
  high : Nat
  /-- Whether the two ends belong to the interval. -/
  closed : Bool
  deriving DecidableEq, Repr

namespace RoundingInterval

/-- The interval around a finite double other than zero, in units of
`10 ^ tenExponent (exponent - 2)`. -/
def around (parts : Binary64) : RoundingInterval :=
  let unit := Binary64.tenCoefficient 1 (parts.exponent - 2)
  { low := (4 * parts.significand - if parts.narrowBelow then 1 else 2) * unit
    value := 4 * parts.significand * unit
    high := (4 * parts.significand + 2) * unit
    closed := parts.significand % 2 = 0 }

/-- Whether a number rounds to the double. -/
def contains (i : RoundingInterval) (n : Nat) : Bool :=
  if i.closed then i.low ≤ n && n ≤ i.high else i.low < n && n < i.high

/-- The point of the grid with the given step that stands for the value, counted in steps. -/
def gridPoint? (tie : Tie) (i : RoundingInterval) (step : Nat) : Option Nat :=
  let below := i.value / step
  let rest := i.value % step
  match i.contains (below * step), i.contains ((below + 1) * step) with
  | false, false => none
  | true, false => some below
  | false, true => some (below + 1)
  | true, true =>
    let down : Bool := match tie with
      | .up => 2 * rest < step
      | .even => 2 * rest < step || (2 * rest == step && below % 2 == 0)
    some (if down then below else below + 1)

/-- The first point found on the grids of step `10 ^ power`, `10 ^ (power - 1)`, …, with the power
of its grid. The value itself lies on the last one. -/
def coarsest (tie : Tie) (i : RoundingInterval) : Nat → Nat × Nat
  | 0 => (i.value, 0)
  | power + 1 =>
    match i.gridPoint? tie (10 ^ (power + 1)) with
    | some point => (point, power + 1)
    | none => i.coarsest tie power

end RoundingInterval

/-- The shortest decimal that reads back as the given finite double. -/
def Decimal.shortest (tie : Tie) (x : Float) : Decimal :=
  let parts := Binary64.ofFloat x
  if parts.significand = 0 then
    ⟨parts.negative, [], 0⟩
  else
    let interval := RoundingInterval.around parts
    let (point, power) := interval.coarsest tie ((Decimal.digitsOf interval.value).length - 1)
    Decimal.ofCoefficient parts.negative point (Binary64.tenExponent (parts.exponent - 2) + power)

end ScriptEngine
