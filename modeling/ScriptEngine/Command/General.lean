import ScriptEngine.Command.Table

/-!
# The general commands

The commands that every engine has: flow control, timing, number formatting and console output.
-/

namespace ScriptEngine.General

/-- Ends the script. -/
def returnCommand : Command where
  name := "Return"
  arity := .variadic [⟨"Return Value", .multi, some .invalid⟩] .multi
  returnType := .invalid
  description := "Stops the execution of the calling script and optionally returns a value."
  help := "Example:<p><code class=\"s\">Return(45 + 12.4 * 0.1)</code></p>"
  handler call := do
    if 1 < call.arguments.supplied then
      throw (.severalResults call.arguments.supplied)
    return .finish (← call.arguments.value 0)

/-- Calls another script. -/
def callCommand : Command where
  name := "Call"
  arity := .variadic [⟨"Function Script", .string, none⟩] .multi
  returnType := .multi
  description := "Calls a function script with the given arguments and returns its result."
  help :=
    "Arguments after the script name are bound to its parameters in order. " ++
    "A missing script or a bad argument list yields the zero value of the " ++
    "expected type.<p><code class=\"s\">total = Call(\"Sum\", 1, 2)</code></p>"
  handler call := do
    return .call (← call.arguments.string 0) (call.arguments.values.drop 1)

/-- Leaves the innermost loop. -/
def breakCommand : Command where
  name := "Break"
  arity := .simple 0
  returnType := .invalid
  description := "Exits the innermost loop."
  help := "Execution continues after the loop's end."
  handler _ := .ok .breakLoop

/-- Goes on with the innermost loop. -/
def continueCommand : Command where
  name := "Continue"
  arity := .simple 0
  returnType := .invalid
  description := "Skips to the next iteration of the innermost loop."
  help := "The loop condition is evaluated again before the body runs."
  handler _ := .ok .continueLoop

/-- Measures time. -/
def secondsPassedCommand : Command where
  name := "GetSecondsPassed"
  arity := .simple 0
  returnType := .numeric
  description := "Returns the seconds elapsed since this script last called the command."
  help :=
    "The first call of a script returns 0. Background scripts keep their timer between runs."
  handler _ := .ok .secondsPassed

/-- Formats a number. -/
def formatNumberCommand : Command where
  name := "FormatNumber"
  nickname := some "FmtNum"
  arity := .standard
    [⟨"Number", .numeric, none⟩, ⟨"Format", .string, none⟩, ⟨"Locale", .string, some (.string "")⟩]
  returnType := .string
  description := "Formats a number using a .NET-style numeric format string."
  help :=
    "Standard specifiers are C, D, E, F, G, N, P, R and X with an optional " ++
    "precision; anything else is read as a custom pattern built from " ++
    "<code>0 # . , % E0</code> and quoted literals. The optional locale " ++
    "selects separators and symbols (invariant, en-US, en-GB, de-DE, fr-FR)." ++
    "<p><code class=\"s\">text = FmtNum(1234.5678, \"N2\")</code></p>"
  handler call := do
    let number ← call.arguments.numeric 0
    let format ← call.arguments.string 1
    let locale ← call.arguments.string 2
    let text ← (NumberFormat.write number format locale).mapError .format
    return .value (.string text)

/-- Prints a message. -/
def printCommand : Command where
  name := "PrintToConsole"
  nickname := some "PrintC"
  arity := .parametric [⟨"OneString", 0, 1, [⟨"Message", .string, some (.string "")⟩]⟩]
  returnType := .invalid
  description := "Prints a message to the console."
  help := "<p><code class=\"s\">PrintC(\"Hello\")</code></p>"
  handler call := do
    return .print (← call.arguments.string 0)

/-- All general commands. -/
def commands : List Command :=
  [returnCommand, callCommand, breakCommand, continueCommand, secondsPassedCommand,
    formatNumberCommand, printCommand]

end ScriptEngine.General

namespace ScriptEngine

/-- The table of the general commands. -/
def CommandTable.general : CommandTable :=
  (CommandTable.empty.registerAll General.commands).2

end ScriptEngine
