import ScriptEngine.Command.Table
import ScriptEngine.Expression.Evaluation
import ScriptEngine.Machine.Context
import ScriptEngine.Machine.World

/-!
# Carrying out commands

`Machine.dispatch` looks a command up, matches its arguments, asks its handler what to do and does
it. A call that cannot start does not fail: it is degraded to the zero value of the type that is
expected of it.
-/

namespace ScriptEngine

/-- Gives the text of an expression a value over the locals of a frame. -/
abbrev Evaluator := String → Dictionary Value → Except Cause Value

/-- What scripts are executed with. -/
structure Machine where
  commands : CommandTable
  scripts : Dictionary Script
  /-- The largest number of frames. -/
  depthLimit : Nat := 64
  evaluate : Evaluator := ScriptEngine.evaluate

/-- A run and its surroundings. -/
structure State where
  context : Context
  world : World := {}

/-- Where the result of a command goes and which type a called script's result is cast to. -/
structure CallSite where
  result : Option String := none
  expect : Option DataType := none
  deriving DecidableEq, Repr

/-- What became of a command. -/
inductive Dispatched
  /-- It has a plain result. -/
  | value (value : Value)
  /-- A call could not start, and the value stands in for its result. -/
  | degraded (value : Value) (fault : CallFault)
  /-- Execution goes on elsewhere. -/
  | transferred
  /-- A frame has finished and its caller goes on. -/
  | returned (fault : Option CallFault)
  /-- The outermost frame has finished. -/
  | finished (value : Value)
  deriving DecidableEq, Repr

/-- The locals that a script starts with: its parameters with the matched values. -/
def Script.bind (script : Script) (bindings : Bindings) : Dictionary Value :=
  .ofList ((script.parameters.map (·.name)).zip bindings.values)

/-- Ends the innermost frame. -/
def Context.leave (context : Context) : Except Cause Dispatched × Context :=
  match context.finishFrame with
  | (.error cause, after) => (.error cause, after)
  | (.ok (.finished value), after) => (.ok (.finished value), after)
  | (.ok (.resumed callee expected coercedFrom), after) =>
    (.ok (.returned (coercedFrom.map (.discarded callee · expected))), after)

namespace State

/-- A state after something was tried on its context. -/
def attempt {α : Type} (state : State) (result : α) :
    Except Cause Context → Except Cause α × State
  | .ok context => (.ok result, { state with context })
  | .error cause => (.error cause, state)

/-- Ends the innermost frame. -/
def leave (state : State) : Except Cause Dispatched × State :=
  let (result, context) := state.context.leave
  (result, { state with context })

end State

namespace Machine

/-- Sets the largest number of frames, which is one at least. -/
def withDepthLimit (machine : Machine) (limit : Nat) : Machine :=
  { machine with depthLimit := max 1 limit }

/-- Starts a script on top of the running ones, if it exists, if there is room for it, and if it
takes the arguments. -/
def call (machine : Machine) (site : CallSite) (target : String) (arguments : List Value)
    (context : Context) : Except Cause (Dispatched × Context) :=
  match machine.scripts.get? target with
  | none =>
    .ok (.degraded (.zero (site.expect.getD .numeric)) (.missingTarget target), context)
  | some script =>
    let expected := site.expect.getD script.returnType
    let degraded (fault : CallFault) : Except Cause (Dispatched × Context) :=
      .ok (.degraded (.zero expected) fault, context)
    if machine.depthLimit ≤ context.depth then
      degraded (.tooDeep target machine.depthLimit)
    else
      match script.arity.bind arguments with
      | .error fault => degraded (.rejected target script.name fault)
      | .ok bindings =>
        match context.ip with
        | .error cause => .error cause
        | .ok ip =>
          .ok (.transferred,
            context.pushFrame script (script.bind bindings) ⟨ip + 1, site.result, expected⟩)

/-- Does what a command asks for. -/
def perform (machine : Machine) (site : CallSite) (now : Nat) (action : Action) (state : State) :
    Except Cause Dispatched × State :=
  match action with
  | .value value => (.ok (.value value), state)
  | .print message => (.ok (.value .invalid), { state with world := state.world.print message })
  | .secondsPassed =>
    match state.context.timePassed now with
    | .error cause => (.error cause, state)
    | .ok (elapsed, context) =>
      (.ok (.value (.numeric (secondsOf elapsed))), { state with context })
  | .breakLoop =>
    let (result, context) := state.context.breakOut
    (result.map fun _ => .transferred, { state with context })
  | .continueLoop => state.attempt .transferred state.context.continueLoop
  | .finish value =>
    match state.context.setPending value with
    | .error cause => (.error cause, state)
    | .ok context => { state with context }.leave
  | .call target arguments =>
    match machine.call site target arguments state.context with
    | .error cause => (.error cause, state)
    | .ok (dispatched, context) => (.ok dispatched, { state with context })

/-- Carries out the command of a name with evaluated arguments. -/
def dispatch (machine : Machine) (site : CallSite) (name : String) (arguments : List Value)
    (state : State) : Except Cause Dispatched × State :=
  match machine.commands.lookup name with
  | none => (.error (.unknownCommand name), state)
  | some command =>
    match matchArguments command.name command.arity arguments with
    | .error cause => (.error cause, state)
    | .ok bindings =>
      let (now, world) := state.world.readClock
      let called := { state with world }
      match command.handler ⟨command.name, bindings, state.context.identity, now⟩ with
      | .error cause => (.error cause, called)
      | .ok action => machine.perform site now action called

end Machine

end ScriptEngine
