import ScriptEngine.Engine.Entry
import ScriptEngine.Json.Writer
import ScriptEngine.Source.Folder
import ScriptEngine.Value.Json

/-!
# What the command line prints

The lines that report the outcome of a run, and those that report why there was none.
-/

namespace ScriptEngine.CommandLine

/-- Why a request fails. -/
inductive LaunchFault
  | notFound (path : String)
  | notFolder (path : String)
  | noScripts (path : String)
  | unreadable (fault : ReadFault)
  | script (fault : Fault)
  deriving DecidableEq, Repr

namespace LaunchFault

/-- The code of a fault. -/
def code : LaunchFault → String
  | .notFound _ => "CLI_SOURCE_NOT_FOUND"
  | .notFolder _ => "CLI_SOURCE_NOT_DIR"
  | .noScripts _ => "CLI_SOURCE_EMPTY"
  | .unreadable _ => "CLI_SOURCE_READ"
  | .script fault => fault.code

/-- The wording of a fault. -/
def message : LaunchFault → String
  | .notFound path => s!"scripts-dir does not exist: {path}"
  | .notFolder path => s!"scripts-dir is not a directory: {path}"
  | .noScripts path => s!"No {scriptSuffix} files under {path}"
  | .unreadable fault => fault.message
  | .script fault => fault.messageWithLine

/-- The lines that report a fault. -/
def lines (fault : LaunchFault) : List String :=
  ["RESULT:ERROR", "ERROR_CODE:" ++ fault.code,
    "ERROR_MSG_JSON:" ++ String.ofList (Json.quote fault.message)]

end LaunchFault

/-- The line that reports a result that was replaced by a zero value. -/
def degradedLine (fault : Fault) : String :=
  "DEGRADED:" ++ fault.code ++ "|" ++ String.ofList (Json.quote fault.message)

/-- The lines that report an outcome. -/
def outcomeLines (outcome : Outcome) : List String :=
  ["RESULT:OK", "VALUE:" ++ outcome.value.toJson.write, "STEPS:" ++ toString outcome.steps] ++
    outcome.degraded.map degradedLine

/-- The script files in a place with the given path. -/
def loadSources (path : String) : Place → Except LaunchFault (Dictionary String)
  | .missing => .error (.notFound path)
  | .file => .error (.notFolder path)
  | .folder content =>
    match content.sources with
    | .error (_, fault) => .error (.unreadable fault)
    | .ok found => if found.size = 0 then .error (.noScripts path) else .ok found

end ScriptEngine.CommandLine
