import ScriptEngine.Command.Matching

/-!
# Commands

A command has a name, perhaps an alias, an arity, and a handler. A handler decides from the matched
arguments what is to happen; carrying it out is the work of the machine.
-/

namespace ScriptEngine

/-- What a command asks for. -/
inductive Action
  /-- A plain result. -/
  | value (v : Value)
  /-- The end of the script with a result. -/
  | finish (v : Value)
  | breakLoop
  | continueLoop
  /-- A call of another script. -/
  | call (target : String) (arguments : List Value)
  /-- The seconds since the script last asked for them. -/
  | secondsPassed
  /-- A message on the console. -/
  | print (message : String)
  deriving DecidableEq, Repr

/-- What a handler can see. -/
structure Invocation where
  /-- The name of the command. -/
  command : String
  arguments : Bindings
  /-- The name of the script that was started. -/
  identity : String
  /-- The time in nanoseconds. -/
  now : Nat
  deriving Repr

/-- The work of a command. -/
abbrev Handler := Invocation → Except Cause Action

/-- A command as it is declared. -/
structure Command where
  name : String
  /-- Another name. -/
  nickname : Option String := none
  arity : Arity
  returnType : DataType
  description : String := ""
  /-- Help as HTML. -/
  help : String := ""
  handler : Handler

end ScriptEngine
