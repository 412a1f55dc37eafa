import ScriptEngine.Engine.Entry
import ScriptEngine.Trial.Basic

/-!
# Running trials

`Trial.run` runs the script of a trial once for every expectation, with a clock that stands still
during a run, and records what it sees; a fault inside a run is recorded, too. `Trial.check`
compares the records with the expectations.

The clock has a range. A trial that moves it further breaks off: it comes to nothing, neither to
records nor to a fault.
-/

namespace ScriptEngine

/-- The largest number of steps of a run in a trial. -/
def Trial.stepLimit : Nat := 50000

/-- The times that a clock can show, in nanoseconds, are those below `2 ^ 64` whole seconds. -/
def clockLimit : Nat := Nat.pow 2 64 * nanosPerSecond

/-- Seconds as nanoseconds, a half going to the even neighbour, if they are not negative and a clock
can show them. -/
def nanosOf? (seconds : Float) : Option Nat :=
  if !seconds.isFinite || seconds < 0 then
    none
  else
    let parts := Binary64.ofFloat seconds
    let scaled := parts.significand * nanosPerSecond
    let nanos :=
      if 0 ≤ parts.exponent then scaled * Nat.pow 2 parts.exponent.toNat
      else roundHalfEven scaled (Nat.pow 2 (-parts.exponent).toNat)
    if nanos < clockLimit then some nanos else none

/-- The advances of the clock before the runs, which are counted from `run`. -/
def advances (run : Nat) : List Expectation → Except TrialFault (List Nat)
  | [] => .ok []
  | expected :: rest =>
    match nanosOf? expected.advance with
    | none => .error (.invalidAdvance run expected.advance)
    | some nanos => (advances (run + 1) rest).map (nanos :: ·)

/-- The times that a clock shows after each of its advances, if it can show them all. -/
def clockTimes? (now : Nat) : List Nat → Option (List Nat)
  | [] => some []
  | advance :: rest =>
    let later := now + advance
    if later < clockLimit then (clockTimes? later rest).map (later :: ·) else none

/-- What is seen of a run. -/
def Observation.ofRun (outcome : Except Fault Outcome) (world : World) : Observation :=
  let console := world.console.written.toList
  match outcome with
  | .ok outcome => ⟨console, some outcome.value, outcome.degraded.map (·.code), none⟩
  | .error fault => ⟨console, none, [], some fault.code⟩

/-- The script files of a folder with the given path, of which there must be one at least. -/
def Trial.sources (path : String) (folder : Folder) : Except TrialFault (Dictionary String) :=
  match folder.sources with
  | .error (file, fault) => .error (.unreadable (path ++ "/" ++ file) fault)
  | .ok found => if found.size = 0 then .error (.noScripts path) else .ok found

namespace Trial

/-- Runs the script once. -/
def runOnce (trial : Trial) (engine : Engine) (world : World) :
    Except Fault Outcome × Engine × World :=
  if trial.background then
    engine.runBackground trial.entry trial.arguments world
  else
    let (outcome, after) := engine.run trial.entry trial.arguments world
    (outcome, engine, after)

/-- Runs the script once at each of some times. -/
def observe (trial : Trial) (engine : Engine) : List Nat → List Observation
  | [] => []
  | now :: later =>
    let (outcome, next, world) := trial.runOnce engine (.still now {})
    .ofRun outcome world :: trial.observe next later

/-- Runs a trial on the scripts in a folder with the given path. -/
def run (trial : Trial) (path : String) (folder : Folder) :
    ExceptT TrialFault Option (List Observation) := do
  if trial.runs.isEmpty then
    throw .noRuns
  let advances ← advances 0 trial.runs
  let sources ← Trial.sources path folder
  let engine ← (Engine.ofSources sources { steps := stepLimit }).mapError TrialFault.engine
  return trial.observe engine (← clockTimes? 0 advances)

end Trial

/-- Whether two values are equal, numbers as numbers. -/
def Value.agrees : Value → Value → Bool
  | .numeric x, .numeric y => x == y
  | v, w => v = w

/-- Texts as JSON. -/
def Json.ofStrings (texts : List String) : Json :=
  .array (texts.map .string)

/-- A value that may be missing as JSON. -/
def Json.ofValue? : Option Value → Json
  | some value => value.toJson
  | none => .null

namespace Expectation

/-- Whether a result is the expected one. Any result is, where none is named. -/
def admitsResult (expected : Expectation) (actual : Option Value) : Bool :=
  match expected.result, actual with
  | none, _ => true
  | some v, some w => v.agrees w
  | some _, none => false

/-- The first part of an observation that is not as expected. Result and replaced results matter
only where no fault is expected. -/
def firstMismatch? (run : Nat) (expected : Expectation) (actual : Observation) :
    Option TrialFault :=
  if expected.errorCode ≠ actual.errorCode then
    match expected.errorCode, actual.errorCode with
    | some code, none => some (.unexpectedSuccess run code)
    | code, found => some (.mismatch run .errorCode (.ofString? code) (.ofString? found))
  else if expected.console ≠ actual.console then
    some (.mismatch run .console (.ofStrings expected.console) (.ofStrings actual.console))
  else if expected.errorCode.isSome then
    none
  else if !expected.admitsResult actual.result then
    some (.mismatch run .result (.ofValue? expected.result) (.ofValue? actual.result))
  else if expected.degraded ≠ actual.degraded then
    some (.mismatch run .degraded (.ofStrings expected.degraded) (.ofStrings actual.degraded))
  else
    none

end Expectation

namespace Trial

/-- The first run, counted from `run`, that is not as expected. -/
def firstMismatch? (run : Nat) : List Expectation → List Observation → Option TrialFault
  | expected :: expectations, actual :: observations =>
    match expected.firstMismatch? run actual with
    | some fault => some fault
    | none => firstMismatch? (run + 1) expectations observations
  | _, _ => none

/-- Reads the trial in a file, runs it on the scripts in a folder and compares what is seen with what
is expected. The file is one of the same folder where no other one is given. -/
def check (path : String) (folder : Folder) (file : String) (casePath : String := path)
    (caseFolder : Folder := folder) : ExceptT TrialFault Option Unit := do
  let trial ← Trial.read casePath caseFolder file
  let observations ← trial.run path folder
  match firstMismatch? 0 trial.runs observations with
  | some fault => throw fault
  | none => return ()

end Trial

end ScriptEngine
