import ScriptEngine.Command.Arity
import ScriptEngine.Fault

/-!
# Matching arguments

`Arity.bind` checks arguments against a declared arity and fills in defaults: first their number,
then their types from left to right.
-/

namespace ScriptEngine

/-- The values of parameters after matching. -/
structure Bindings where
  values : List Value
  /-- How many of the values the caller gave. -/
  supplied : Nat
  /-- The parameter set that was matched, if there are several. -/
  set : Option String
  deriving DecidableEq, Repr

namespace Bindings

/-- The value at an index. -/
def get? (b : Bindings) (index : Nat) : Option Value :=
  b.values[index]?

/-- The value at an index, which must be there. -/
def value (b : Bindings) (index : Nat) : Except Cause Value :=
  match b.get? index with
  | some v => .ok v
  | none => .error (.unbound index)

/-- The number at an index. -/
def numeric (b : Bindings) (index : Nat) : Except Cause Float := do
  match ← b.value index with
  | .numeric x => return x
  | v => throw (.boundType index v.dataType .numeric)

/-- The text at an index. -/
def string (b : Bindings) (index : Nat) : Except Cause String := do
  match ← b.value index with
  | .string s => return s
  | v => throw (.boundType index v.dataType .string)

end Bindings

/-- The first argument of a wrong type, counted from `index`. Arguments beyond the parameters are of
the type `rest`, if there is one. -/
def firstMismatch? (index : Nat) (rest : Option DataType) :
    List Parameter → List Value → Option MatchFault
  | _, [] => none
  | p :: parameters, v :: arguments =>
    if p.dataType.accepts v then firstMismatch? (index + 1) rest parameters arguments
    else some (.wrongType index p.description p.dataType v.dataType)
  | [], v :: arguments =>
    match rest with
    | some type =>
      if type.accepts v then firstMismatch? (index + 1) rest [] arguments
      else some (.wrongType index "variadic tail" type v.dataType)
    | none => none

/-- The value of a parameter for which no argument was given. -/
def Parameter.fallback (p : Parameter) : Value :=
  p.default.getD .invalid

/-- Arguments of the right number, followed by the values of the parameters beyond them. -/
def bindTyped (parameters : List Parameter) (rest : Option DataType) (set : Option String)
    (arguments : List Value) : Except MatchFault Bindings :=
  match firstMismatch? 0 rest parameters arguments with
  | some fault => .error fault
  | none =>
    .ok ⟨arguments ++ (parameters.drop arguments.length).map (·.fallback), arguments.length, set⟩

/-- Arguments for a list of parameters. -/
def bindParameters (parameters : List Parameter) (set : Option String) (arguments : List Value) :
    Except MatchFault Bindings :=
  let required := requiredCount parameters
  if arguments.length < required ∨ parameters.length < arguments.length then
    .error (.between required parameters.length arguments.length)
  else
    bindTyped parameters none set arguments

/-- Whether a parameter set takes a number of arguments. -/
def ParameterSet.admits (s : ParameterSet) (count : Nat) : Bool :=
  s.least ≤ count && count ≤ s.most

/-- Matches arguments. -/
def Arity.bind (arity : Arity) (arguments : List Value) : Except MatchFault Bindings :=
  match arity with
  | .simple count =>
    if arguments.length = count then .ok ⟨arguments, arguments.length, none⟩
    else .error (.exactly count arguments.length)
  | .standard parameters => bindParameters parameters none arguments
  | .parametric sets =>
    match sets.find? (·.admits arguments.length) with
    | some set => bindParameters set.parameters (some set.name) arguments
    | none =>
      .error (.noSet (sets.map fun s => (s.name, s.least, s.most)) arguments.length)
  | .variadic leading rest =>
    let required := requiredCount leading
    if arguments.length < required then .error (.atLeast required arguments.length)
    else bindTyped leading (some rest) none arguments

/-- Matches the arguments of a command or script with a name. -/
def matchArguments (name : String) (arity : Arity) (arguments : List Value) :
    Except Cause Bindings :=
  (arity.bind arguments).mapError (.mismatch name)

end ScriptEngine
