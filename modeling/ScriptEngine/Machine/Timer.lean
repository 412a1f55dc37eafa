/-!
# Timers

A timer remembers the latest time at which a script asked how much time had passed. Times are
counted in nanoseconds. A clock that goes back adds nothing, and time that was already counted is
not counted again.
-/

namespace ScriptEngine

/-- Nanoseconds in one second. -/
def nanosPerSecond : Nat := 1000000000

/-- A duration in seconds as a double: whole seconds and the rest are converted apart. -/
def secondsOf (nanos : Nat) : Float :=
  Float.ofNat (nanos / nanosPerSecond) + Float.ofNat (nanos % nanosPerSecond) / 1000000000.0

/-- The timer of one script. -/
structure Timer where
  /-- The latest time of a tick, if there was one. -/
  lastTick : Option Nat := none
  deriving DecidableEq, Repr

namespace Timer

/-- The time since the previous tick, none on the first one, and the timer after this tick. -/
def tick (timer : Timer) (now : Nat) : Nat × Timer :=
  match timer.lastTick with
  | none => (0, ⟨some now⟩)
  | some previous => (now - previous, ⟨some (max previous now)⟩)

end Timer

end ScriptEngine
