import ScriptEngine.Command.General
import ScriptEngine.Machine.Step

/-!
# Engines

An engine holds scripts all of whose commands exist, and runs them by name. A plain run starts with
fresh timers. A background run goes on with the timers that earlier background runs left behind,
also when it fails.
-/

namespace ScriptEngine

/-- What an engine is built with. A limit of zero counts as one. -/
structure EngineOptions where
  commands : CommandTable := .general
  /-- The largest number of steps of a run. -/
  steps : Nat := 100000
  /-- The largest number of frames. -/
  depth : Nat := 64
  evaluate : Evaluator := ScriptEngine.evaluate

/-- A machine with a limit on the length of runs and with the timers of background runs. -/
structure Engine where
  machine : Machine
  stepLimit : Nat
  timers : Dictionary Timer := .empty

namespace Engine

/-- The first command of a script that a table does not have. -/
def unknownCommand? (commands : CommandTable) (script : Script) : Option Fault :=
  (script.commandUses.find? fun (name, _) => !commands.contains name).map fun (name, span) =>
    ⟨.unknownInScript script.name script.path name, some span⟩

/-- An engine for scripts that use only commands of the table. -/
def build (scripts : Dictionary Script) (options : EngineOptions) : Except Fault Engine :=
  match scripts.values.findSome? (unknownCommand? options.commands) with
  | some fault => .error fault
  | none =>
    let machine : Machine := { commands := options.commands, scripts, evaluate := options.evaluate }
    .ok ⟨machine.withDepthLimit options.depth, max 1 options.steps, .empty⟩

/-- The context in which a script starts with the given arguments. -/
def prepare (engine : Engine) (name : String) (arguments : List Value) : Except Cause Context :=
  match engine.machine.scripts.get? name with
  | none => .error (.notLoaded name)
  | some script => do
    let bindings ← matchArguments script.name script.arity arguments
    return Context.start script (script.bind bindings)

/-- Runs a script once. -/
def run (engine : Engine) (name : String) (arguments : List Value) (world : World) :
    Except Fault Outcome × World :=
  match engine.prepare name arguments with
  | .error cause => (.error ⟨cause, none⟩, world)
  | .ok context =>
    let (outcome, state) := engine.machine.run engine.stepLimit ⟨context, world⟩
    (outcome, state.world)

/-- Runs a script in the background: all timers go on from where earlier background runs left
them. -/
def runBackground (engine : Engine) (name : String) (arguments : List Value) (world : World) :
    Except Fault Outcome × Engine × World :=
  match engine.prepare name arguments with
  | .error cause => (.error ⟨cause, none⟩, engine, world)
  | .ok context =>
    let (outcome, state) :=
      engine.machine.run engine.stepLimit ⟨context.withTimers engine.timers, world⟩
    (outcome, { engine with timers := state.context.timers }, state.world)

end Engine

end ScriptEngine
