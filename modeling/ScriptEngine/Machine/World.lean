/-!
# Clock and console

What a run is in touch with outside of itself: a clock, which is read again and again, and a
console, which may fail to take a message.
-/

namespace ScriptEngine

/-- A console with the messages it was offered so far. -/
structure Console where
  /-- Whether the message at an index of the sequence can be written. -/
  accepts : Nat → String → Bool := fun _ _ => true
  /-- All messages, the latest one last. -/
  offered : Array String := #[]
  /-- The messages that could be written, the latest one last. -/
  written : Array String := #[]

namespace Console

/-- Offers a message. -/
def print (console : Console) (message : String) : Console :=
  { console with
    offered := console.offered.push message
    written :=
      if console.accepts console.offered.size message then console.written.push message
      else console.written }

/-- The console that can write nothing. -/
def broken : Console where
  accepts := fun _ _ => false

/-- The same console with no message on it. -/
def cleared (console : Console) : Console :=
  { console with offered := #[], written := #[] }

end Console

/-- The surroundings of a run. -/
structure World where
  /-- The time in nanoseconds at each reading. -/
  clock : Nat → Nat := fun _ => 0
  /-- How often the clock has been read. -/
  readings : Nat := 0
  console : Console := {}

namespace World

/-- Surroundings in which the time stands still. -/
def still (now : Nat) (console : Console) : World where
  clock := fun _ => now
  console

/-- Reads the clock. -/
def readClock (world : World) : Nat × World :=
  (world.clock world.readings, { world with readings := world.readings + 1 })

/-- Offers a message to the console. -/
def print (world : World) (message : String) : World :=
  { world with console := world.console.print message }

end World

end ScriptEngine
