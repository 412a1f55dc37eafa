import ScriptEngine.Command.Basic
import ScriptEngine.Dictionary
import ScriptEngine.Text.Identifier

/-!
# The command table

Commands in the order of their registration, with an index from names and aliases, which share one
namespace without regard to case. A command that is declared wrongly or clashes with another one is
not taken.
-/

namespace ScriptEngine

/-! ## Well-formed declarations -/

/-- What is wrong with a list of parameters, if anything: the optional ones stand at the end, and
every default fits its parameter. -/
def parametersFault? (parameters : List Parameter) : Option SignatureFault :=
  if (parameters.drop (requiredCount parameters)).any (!·.isOptional) then
    some .requiredAfterOptional
  else
    parameters.findSome? fun p =>
      match p.default with
      | some v =>
        if p.dataType.accepts v then none
        else some (.defaultType p.description v.dataType p.dataType)
      | none => none

/-- What is wrong with a parameter set, if anything. -/
def ParameterSet.fault? (s : ParameterSet) : Option SignatureFault :=
  if s.most < s.least ∨ s.parameters.length ≠ s.most then
    some (.setBounds s.name s.least s.most s.parameters.length)
  else
    match parametersFault? s.parameters with
    | some fault => some fault
    | none =>
      if requiredCount s.parameters ≠ s.least then some (.setRequired s.name s.least) else none

/-- What is wrong with parameter sets, if anything, given the names of those before them. -/
def setsFault? (seen : List String) : List ParameterSet → Option SignatureFault
  | [] => none
  | s :: rest =>
    if Text.isBlankText s.name then some .unnamedSet
    else if seen.contains s.name then some (.repeatedSet s.name)
    else
      match s.fault? with
      | some fault => some fault
      | none => setsFault? (s.name :: seen) rest

/-- What is wrong with an arity, if anything. -/
def Arity.fault? : Arity → Option SignatureFault
  | .simple _ => none
  | .standard parameters => parametersFault? parameters
  | .variadic leading _ => parametersFault? leading
  | .parametric sets => if sets.isEmpty then some .noSets else setsFault? [] sets

/-- What is wrong with the declaration of a command, if anything. -/
def Command.fault? (c : Command) : Option SignatureFault :=
  if !Text.isIdentifier c.name then
    some .invalidName
  else
    match c.nickname.filter (!Text.isIdentifier ·) with
    | some nickname => some (.invalidAlias nickname)
    | none => c.arity.fault?

/-! ## The table -/

/-- Commands and where to find them. -/
structure CommandTable where
  commands : List Command := []
  /-- The position of a command by its keys. -/
  index : Dictionary Nat := .empty

/-- The key of a name or alias. -/
def commandKey (name : String) : String :=
  Text.lower name

/-- The keys of a command. -/
def Command.keys (c : Command) : List String :=
  commandKey c.name :: (c.nickname.map commandKey).toList

namespace CommandTable

/-- The table without commands. -/
def empty : CommandTable :=
  {}

/-- The command of a name or alias. -/
def lookup (t : CommandTable) (name : String) : Option Command := do
  t.commands[← t.index.get? (commandKey name)]?

/-- Whether a name or alias is known. -/
def contains (t : CommandTable) (name : String) : Bool :=
  (t.lookup name).isSome

/-- Number of commands. -/
def size (t : CommandTable) : Nat :=
  t.commands.length

/-- Why a command cannot be added, if so. -/
def rejects? (t : CommandTable) (c : Command) : Option Cause :=
  match c.fault? with
  | some fault => some (.signature c.name fault)
  | none =>
    if c.nickname.map commandKey = some (commandKey c.name) then
      some (.signature c.name .aliasRepeatsName)
    else
      c.keys.findSome? fun key =>
        (t.lookup key).map fun owner => .identifierTaken key c.name owner.name

/-- Adds a command. -/
def register (t : CommandTable) (c : Command) : Except Cause CommandTable :=
  match t.rejects? c with
  | some cause => .error cause
  | none =>
    .ok ⟨t.commands ++ [c], c.keys.foldl (fun index key => index.insert key t.size) t.index⟩

/-- Adds commands until one is rejected. Those before it stay. -/
def registerAll (t : CommandTable) : List Command → Option Cause × CommandTable
  | [] => (none, t)
  | c :: rest =>
    match t.register c with
    | .ok next => next.registerAll rest
    | .error cause => (some cause, t)

end CommandTable

end ScriptEngine
