import ScriptEngine.Engine.Basic
import ScriptEngine.Script.Reader

/-!
# From source texts to a run

Building an engine from source texts, choosing the script to start with, and running it once.
-/

namespace ScriptEngine

/-- The script that is started when none is named. -/
def defaultEntry : String := "main"

/-- The script to start with: the one that is named, or else the default one. -/
def resolveEntry (names : List String) (named : Option String) : Except Cause String :=
  match named with
  | some entry => if names.contains entry then .ok entry else .error (.entryNotLoaded entry)
  | none => if names.contains defaultEntry then .ok defaultEntry else .error .noMain

/-- An engine for the scripts among files, given as paths with their contents. -/
def Engine.ofSources (sources : Dictionary String) (options : EngineOptions) :
    Except Fault Engine := do
  Engine.build (← Script.parseAll sources) options

/-- Builds an engine, chooses the script to start with and runs it. -/
def runSources (sources : Dictionary String) (named : Option String) (arguments : List Value)
    (options : EngineOptions) (world : World) : Except Fault Outcome × World :=
  match Engine.ofSources sources options with
  | .error fault => (.error fault, world)
  | .ok engine =>
    match resolveEntry engine.machine.scripts.keys named with
    | .error cause => (.error ⟨cause, none⟩, world)
    | .ok entry => engine.run entry arguments world

end ScriptEngine
