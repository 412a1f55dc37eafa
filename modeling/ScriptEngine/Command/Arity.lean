import ScriptEngine.Value.Basic

/-!
# Declared parameters

What a command or script declares about its arguments. A parameter is optional exactly when it has
a default. `Arity.leastArguments` and `Arity.mostArguments` are the bounds that the reference shows.
-/

namespace ScriptEngine

/-- A declared parameter. -/
structure Parameter where
  description : String
  dataType : DataType
  default : Option Value := none
  deriving DecidableEq, Repr

/-- Whether an argument for a parameter can be left out. -/
def Parameter.isOptional (p : Parameter) : Bool :=
  p.default.isSome

/-- How many parameters stand before the first optional one. -/
def requiredCount (parameters : List Parameter) : Nat :=
  (parameters.takeWhile (!·.isOptional)).length

/-- One of several signatures of a command. -/
structure ParameterSet where
  name : String
  least : Nat
  most : Nat
  parameters : List Parameter
  deriving DecidableEq, Repr

/-- How many arguments a command takes, and of which types. -/
inductive Arity
  /-- A fixed number of arguments of any type. -/
  | simple (count : Nat)
  /-- One argument for each parameter, the optional ones at the end. -/
  | standard (parameters : List Parameter)
  /-- The first set that takes the number of arguments counts. -/
  | parametric (sets : List ParameterSet)
  /-- Leading parameters, then any number of arguments of one type. -/
  | variadic (leading : List Parameter) (rest : DataType)
  deriving DecidableEq, Repr

namespace Arity

/-- The name of a kind of arity. -/
def className : Arity → String
  | .simple _ => "simple"
  | .standard _ => "standard"
  | .parametric _ => "parametric"
  | .variadic .. => "variadic"

/-- Fewest arguments. -/
def leastArguments : Arity → Nat
  | .simple count => count
  | .standard parameters => requiredCount parameters
  | .parametric sets => ((sets.map (·.least)).min?).getD 0
  | .variadic leading _ => requiredCount leading

/-- Most arguments, if there is a limit. -/
def mostArguments : Arity → Option Nat
  | .simple count => some count
  | .standard parameters => some parameters.length
  | .parametric sets => some (((sets.map (·.most)).max?).getD 0)
  | .variadic .. => none

end Arity

end ScriptEngine
