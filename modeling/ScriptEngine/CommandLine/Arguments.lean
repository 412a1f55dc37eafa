import ScriptEngine.Decimal.Literal

/-!
# The command line

A command line names a mode of work, followed by the options of that mode. An option is written
`--name value` or `--name=value`, once at most; a value that stands apart does not start with a
hyphen.
-/

namespace ScriptEngine.CommandLine

/-- What to run and how. -/
structure RunRequest where
  folder : String
  /-- The script to start with. -/
  entry : Option String
  /-- How often to run it as a background script. -/
  repetitions : Option Nat
  /-- The milliseconds between two such runs. -/
  interval : Nat
  deriving DecidableEq, Repr

/-- The forms of the command reference. -/
inductive ReferenceFormat
  | json
  | html
  deriving DecidableEq, Repr

/-- What a command line asks for. -/
inductive Request
  | run (request : RunRequest)
  | docs (format : ReferenceFormat)
  | browse
  deriving DecidableEq, Repr

/-- The options of a command line with their values, in order. -/
abbrev OptionValues := List (String × String)

/-- Whether an argument can be the value of the option before it. -/
def isValue (argument : String) : Bool :=
  argument.toList.head? != some '-' || argument == "-"

/-- The name and the value of an argument of the form `--name=value`; there need be no value. -/
def splitOption? (argument : String) : Option (String × Option String) :=
  match argument.toList with
  | '-' :: '-' :: body =>
    let name := String.ofList (body.takeWhile (· != '='))
    match body.dropWhile (· != '=') with
    | [] => some (name, none)
    | _ :: value => some (name, some (String.ofList value))
  | _ => none

/-- Reads options of the given names, none of them twice. Two hyphens may stand at the end. -/
def options? (known : List String) : OptionValues → List String → Option OptionValues
  | found, [] => some found
  | found, argument :: rest =>
    if argument = "--" then
      if rest.isEmpty then some found else none
    else
      match splitOption? argument, rest with
      | some (name, some value), rest =>
        if known.contains name && (found.lookup name).isNone then
          options? known ((name, value) :: found) rest
        else none
      | some (name, none), value :: rest =>
        if known.contains name && (found.lookup name).isNone && isValue value then
          options? known ((name, value) :: found) rest
        else none
      | _, _ => none

/-- The natural number below a bound that a text denotes; a plus sign may stand in front. -/
def number? (bound : Nat) (text : String) : Option Nat :=
  let digits := match text.toList with
    | '+' :: rest => rest
    | other => other
  if digits.isEmpty || !digits.all Char.isDigit then
    none
  else
    let value := Digit.value (digits.map Digit.ofChar)
    if value < bound then some value else none

/-- The value of an option that may be missing, if it can be read. -/
def optionValue? {α : Type} (found : OptionValues) (name : String) (read : String → Option α) :
    Option (Option α) :=
  match found.lookup name with
  | none => some none
  | some text => (read text).map some

/-- How often to run: once at least. -/
def repetitions? (text : String) : Option Nat := do
  let n ← number? (Nat.pow 2 32) text
  if n = 0 then none else some n

/-- Reads a request to run a script. -/
def runRequest? (arguments : List String) : Option RunRequest := do
  let found ← options? ["scripts-dir", "entry-script", "repeat", "interval-ms"] [] arguments
  return {
    folder := ← found.lookup "scripts-dir"
    entry := found.lookup "entry-script"
    repetitions := ← optionValue? found "repeat" repetitions?
    interval := (← optionValue? found "interval-ms" (number? (Nat.pow 2 64))).getD 0 }

/-- Reads the name of a form of the reference. -/
def format? : String → Option ReferenceFormat
  | "json" => some .json
  | "html" => some .html
  | _ => none

/-- Reads a command line; nothing if it cannot be understood. -/
def parse? : List String → Option Request
  | "run" :: arguments => (runRequest? arguments).map .run
  | "docs" :: arguments => do
    let found ← options? ["format"] [] arguments
    return .docs ((← optionValue? found "format" format?).getD .json)
  | "reference" :: arguments => (options? [] [] arguments).map fun _ => .browse
  | _ => none

end ScriptEngine.CommandLine
