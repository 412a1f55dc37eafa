import ScriptEngine.Command.Reference
import ScriptEngine.CommandLine.Arguments
import ScriptEngine.CommandLine.Output

/-!
# Carrying out requests

A request is carried out on a `Host`, which finds files, tells the time and prints lines. Before
every step of a run the clock is read, and after it the messages of the step are printed.
-/

namespace ScriptEngine.CommandLine

/-- What requests need of their surroundings. -/
structure Host (m : Type → Type) where
  /-- The absolute form of a path and what it leads to. -/
  locate : String → m (String × Place)
  /-- The time in nanoseconds. -/
  now : m Nat
  print : String → m Unit
  /-- Waits for some milliseconds. -/
  pause : Nat → m Unit

namespace Host

variable {m : Type → Type} [Monad m]

/-- Prints lines. -/
def printAll (host : Host m) (lines : List String) : m Unit :=
  lines.forM host.print

/-- A state with the current time and nothing on its console. -/
def refresh (host : Host m) (state : State) : m State := do
  return { state with world := .still (← host.now) state.world.console.cleared }

/-- Prints the messages of a step. -/
def flush (host : Host m) (state : State) : m Unit :=
  host.printAll state.world.console.written.toList

/-- Takes steps until the run ends, at most as many more as the argument says. -/
def drive (host : Host m) (machine : Machine) (limit : Nat) :
    Nat → Run → m (Except Fault Outcome × State)
  | 0, run => return (.error (run.overrun limit), run.state)
  | remaining + 1, run => do
    let state ← host.refresh run.state
    match machine.advance { run with state } with
    | .inl next => do
      host.flush next.state
      host.drive machine limit remaining next
    | .inr (result, last) => do
      host.flush last
      return (result, last)

/-- Runs a script in a context and reports its outcome. The context is the last one. -/
def runIn (host : Host m) (engine : Engine) (context : Context) :
    ExceptT LaunchFault m Context := do
  let limit := engine.stepLimit
  let (result, last) ← host.drive engine.machine limit limit ⟨⟨context, {}⟩, 0, []⟩
  match result with
  | .ok outcome => host.printAll (outcomeLines outcome)
  | .error fault => throw (.script fault)
  return last.context

/-- The engine for the scripts in a place with the given path, and the script to start with. -/
def setUp (path : String) (place : Place) (named : Option String) :
    Except LaunchFault (Engine × String) := do
  let sources ← loadSources path place
  let engine ← (Engine.ofSources sources {}).mapError LaunchFault.script
  let entry ← (resolveEntry engine.machine.scripts.keys named).mapError
    fun cause => LaunchFault.script ⟨cause, none⟩
  return (engine, entry)

/-- The context in which a script without arguments starts. -/
def contextFor (engine : Engine) (entry : String) : Except LaunchFault Context :=
  (engine.prepare entry []).mapError fun cause => .script ⟨cause, none⟩

/-- Runs a script in the background several times with pauses in between. -/
def runRepeatedly (host : Host m) (entry : String) (interval : Nat) (engine : Engine) :
    Nat → ExceptT LaunchFault m Unit
  | 0 => return ()
  | remaining + 1 => do
    let context ← contextFor engine entry
    let last ← host.runIn engine (context.withTimers engine.timers)
    if 0 < remaining ∧ 0 < interval then
      host.pause interval
    host.runRepeatedly entry interval { engine with timers := last.timers } remaining

/-- Runs what a request names. -/
def launch (host : Host m) (request : RunRequest) : ExceptT LaunchFault m Unit := do
  let (path, place) ← host.locate request.folder
  let (engine, entry) ← setUp path place request.entry
  match request.repetitions with
  | some count => host.runRepeatedly entry request.interval engine count
  | none => do
    let _ ← host.runIn engine (← contextFor engine entry)

/-- Runs what a request names, and returns the exit code. -/
def run (host : Host m) (request : RunRequest) : m UInt32 := do
  match ← (host.launch request).run with
  | .ok _ => return 0
  | .error fault => do
    host.printAll fault.lines
    return 1

/-- Prints the command reference. -/
def docs (host : Host m) (format : ReferenceFormat) : m UInt32 := do
  host.print (match format with
    | .json => CommandTable.general.toJson.pretty
    | .html => CommandTable.general.html)
  return 0

end Host

/-- The exit code for a command line that cannot be understood. -/
def usageCode : UInt32 := 2

end ScriptEngine.CommandLine
