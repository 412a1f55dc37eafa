import ScriptEngine.Command.Arity
import ScriptEngine.Span

/-!
# Scripts

A script has parameters, a declared type of its result, and a list of instructions, which refer to
each other by their index in the list.
-/

namespace ScriptEngine

/-- A command as a script uses it. -/
structure CommandUse where
  name : String
  /-- The expressions of the arguments. -/
  arguments : List String
  /-- The local that takes the result. -/
  result : Option String
  /-- The type to which the result of a call is cast. -/
  expect : Option DataType
  deriving DecidableEq, Repr

/-- What an instruction does. -/
inductive Operation
  | assign (target expression : String)
  | command (use : CommandUse)
  /-- Goes on if the condition holds, else jumps. -/
  | branch (condition : String) (otherwise : Nat)
  | jump (target : Nat)
  /-- Goes on into the loop if the condition holds, else leaves it. -/
  | loopStart (condition : String) (exit : Nat)
  /-- Goes back to the beginning of the loop. -/
  | loopEnd (start : Nat)
  deriving DecidableEq, Repr

/-- An instruction and the place it was written at. -/
structure Instruction where
  operation : Operation
  span : Span
  deriving DecidableEq, Repr

/-- A parameter of a script. -/
structure ScriptParameter where
  name : String
  dataType : DataType
  default : Option Value
  span : Span
  deriving DecidableEq, Repr

/-- A script as it is run. -/
structure Script where
  name : String
  path : String
  parameters : List ScriptParameter
  returnType : DataType
  instructions : List Instruction
  deriving DecidableEq, Repr

/-- The parameter that a caller sees. -/
def ScriptParameter.toParameter (p : ScriptParameter) : Parameter :=
  ⟨p.name, p.dataType, p.default⟩

namespace Script

/-- The parameters that a caller sees. -/
def signature (s : Script) : List Parameter :=
  s.parameters.map (·.toParameter)

/-- The arity of a call. -/
def arity (s : Script) : Arity :=
  .standard s.signature

/-- The commands that a script uses and where. -/
def commandUses (s : Script) : List (String × Span) :=
  s.instructions.filterMap fun instruction =>
    match instruction.operation with
    | .command use => some (use.name, instruction.span)
    | _ => none

end Script

end ScriptEngine
