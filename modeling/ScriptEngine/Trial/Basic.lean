import ScriptEngine.Json.Fields
import ScriptEngine.Json.Reader
import ScriptEngine.Json.Writer
import ScriptEngine.Source.Folder
import ScriptEngine.Value.Json

/-!
# Trials

A trial says which script to run how often, how far the clock moves before each run, and what is
expected of the run. It is written as JSON.
-/

namespace ScriptEngine

/-- What is expected of one run. -/
structure Expectation where
  /-- The seconds by which the clock moves forward before the run. -/
  advance : Float
  console : List String
  /-- The result, if it matters. -/
  result : Option Value
  /-- The codes of the results that were replaced by zero values. -/
  degraded : List String
  /-- The code of the fault with which the run is to fail. -/
  errorCode : Option String
  deriving DecidableEq, Repr

/-- Runs of one script with what is expected of them. -/
structure Trial where
  version : String
  entry : String
  arguments : List Value
  /-- Whether the runs share their timers. -/
  background : Bool
  runs : List Expectation
  deriving DecidableEq, Repr

/-- What was seen of one run. -/
structure Observation where
  console : List String
  result : Option Value
  degraded : List String
  errorCode : Option String
  deriving DecidableEq, Repr

/-- The parts of an observation that are compared. -/
inductive ObservedField
  | errorCode
  | console
  | result
  | degraded
  deriving DecidableEq, Repr

/-- The name of a part of an observation. -/
def ObservedField.name : ObservedField → String
  | .errorCode => "errorCode"
  | .console => "console"
  | .result => "result"
  | .degraded => "degraded"

/-- The version of the written form. -/
def Trial.currentVersion : String := "coda-tool-case.v1"

/-- Why a trial fails. -/
inductive TrialFault
  | unreadable (path : String) (fault : ReadFault)
  | malformed (path : String)
  | version (found : String)
  | noScripts (path : String)
  | noRuns
  | invalidAdvance (run : Nat) (seconds : Float)
  | engine (fault : Fault)
  | unexpectedSuccess (run : Nat) (expected : String)
  | mismatch (run : Nat) (field : ObservedField) (expected actual : Json)

/-- The wording of why a trial fails. -/
def TrialFault.message : TrialFault → String
  | .unreadable path fault =>
    let reason := fault.message
    s!"Failed to read file {path}: {reason}"
  | .malformed path => s!"Failed to parse testcase {path}"
  | .version found =>
    let expected := Trial.currentVersion
    s!"Invalid testcase schema version \"{found}\", expected \"{expected}\"."
  | .noScripts path => s!"No .script.xml files under {path}."
  | .noRuns => "Testcase declares no runs."
  | .invalidAdvance run seconds =>
    let seconds := plainNumber seconds
    s!"Run {run} advances the clock by {seconds} seconds."
  | .engine fault =>
    let display := fault.display
    s!"Engine error: {display}"
  | .unexpectedSuccess run expected => s!"Run {run} expected error {expected}, but it succeeded."
  | .mismatch run field expected actual =>
    let name := field.name
    let expected := expected.write
    let actual := actual.write
    s!"Run {run} mismatch in {name}. expected={expected} actual={actual}"

/-! ## The written form -/

/-- Reads a list with a reader for its items. -/
def Json.listOf? {α : Type} (read : Json → Option α) (j : Json) : Option (List α) := do
  (← j.items?).mapM read

/-- Reads a field that may be missing, but not `null`. -/
def Json.defaulted? {α : Type} (name : String) (fallback : α) (read : Json → Option α)
    (j : Json) : Option α := do
  match ← j.optional? name with
  | some value => read value
  | none => some fallback

/-- Reads a truth value. -/
def Json.bool? : Json → Option Bool
  | .bool b => some b
  | _ => none

/-- Reads a number. -/
def Json.float? : Json → Option Float
  | .number n => n.toFloat?
  | _ => none

/-- The fields of a run in order. -/
def Expectation.fields : List String :=
  ["advanceSeconds", "console", "result", "degraded", "errorCode"]

/-- Reads what is expected of a run. -/
def Expectation.ofJson? (json : Json) : Option Expectation := do
  let j := json.named Expectation.fields
  return {
    advance := ← j.defaulted? "advanceSeconds" 0 Json.float?
    console := ← j.defaulted? "console" [] (Json.listOf? Json.string?)
    result := ← Json.nullable? Value.ofJson? (← j.optional? "result")
    degraded := ← j.defaulted? "degraded" [] (Json.listOf? Json.string?)
    errorCode := ← Json.nullable? Json.string? (← j.optional? "errorCode") }

/-- The fields of a trial in order. -/
def Trial.fields : List String :=
  ["schemaVersion", "entryScript", "entryArgs", "background", "runs"]

/-- Reads a trial of any version. -/
def Trial.ofJson? (json : Json) : Option Trial := do
  let j := json.named Trial.fields
  return {
    version := ← (← j.required? "schemaVersion").string?
    entry := ← j.defaulted? "entryScript" "main" Json.string?
    arguments := ← j.defaulted? "entryArgs" [] (Json.listOf? Value.ofJson?)
    background := ← j.defaulted? "background" false Json.bool?
    runs := ← (← j.required? "runs").listOf? Expectation.ofJson? }

/-- Reads the trial in a file of a folder with the given path. -/
def Trial.read (path : String) (folder : Folder) (file : String) : Except TrialFault Trial :=
  let location := path ++ "/" ++ file
  match folder.read file with
  | .error fault => .error (.unreadable location fault)
  | .ok text =>
    match (Json.parse? text).bind Trial.ofJson? with
    | none => .error (.malformed location)
    | some trial =>
      if trial.version = Trial.currentVersion then .ok trial else .error (.version trial.version)

end ScriptEngine
