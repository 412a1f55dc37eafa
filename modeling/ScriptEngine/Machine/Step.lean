import ScriptEngine.Machine.Dispatch

/-!
# Executing instructions

`Machine.step` executes the instruction at which the innermost frame stands, or ends the frame if it
stands behind its last instruction. `Machine.runWithin` repeats this a limited number of times.
-/

namespace ScriptEngine

/-- What an instruction led to. -/
inductive Executed
  | continues
  /-- A result was replaced by a zero value. -/
  | degraded (fault : CallFault)
  /-- The outermost frame has finished. -/
  | finished (value : Value)
  deriving DecidableEq, Repr

/-- Where a run stands after a step. -/
inductive Progress
  /-- It goes on; a result may have been replaced by a zero value. -/
  | running (degraded : Option Fault)
  | finished (value : Value)
  | failed (fault : Fault)
  deriving DecidableEq, Repr

/-- The result of a run. -/
structure Outcome where
  value : Value
  /-- The number of steps that were taken. -/
  steps : Nat
  /-- The results that were replaced by zero values, in the order of execution. -/
  degraded : List Fault
  deriving DecidableEq, Repr

/-- A run under way. -/
structure Run where
  state : State
  /-- The number of steps so far. -/
  steps : Nat
  /-- The results that were replaced by zero values, the latest one first. -/
  degraded : List Fault

/-- The fault of a run that takes more steps than are allowed. -/
def Run.overrun (run : Run) (limit : Nat) : Fault :=
  ⟨.stepLimit run.state.context.identity limit, none⟩

namespace Machine

/-! ## Instructions other than commands -/

/-- Whether a condition holds in the innermost frame. -/
def holds (machine : Machine) (condition : String) (context : Context) : Except Cause Bool := do
  return (← machine.evaluate condition (← context.locals)).isTruthy

/-- Gives a local the value of an expression. -/
def assign (machine : Machine) (target expression : String) (context : Context) :
    Except Cause Context := do
  let value ← machine.evaluate expression (← context.locals)
  (← context.setLocal target value).advance

/-- Goes on if a condition holds, else to another instruction. -/
def branch (machine : Machine) (condition : String) (otherwise : Nat) (context : Context) :
    Except Cause Context := do
  if ← machine.holds condition context then context.advance else context.setIp otherwise

/-- Goes into a loop if its condition holds, else behind it. -/
def loopStart (machine : Machine) (condition : String) (exit : Nat) (context : Context) :
    Except Cause Context := do
  let ip ← context.ip
  if ← machine.holds condition context then
    (← context.enterLoop ip exit).advance
  else if context.isInLoop ip then
    (← context.exitLoop).2.setIp exit
  else
    context.setIp exit

/-! ## Commands -/

/-- Stores the result of a command, if it is asked for, and goes on. -/
def store (slot : Option String) (value : Value) (context : Context) : Except Cause Context :=
  match slot with
  | some name => do (← context.setLocal name value).advance
  | none => context.advance

/-- Evaluates the arguments of a command in order. -/
def evaluateAll (machine : Machine) (expressions : List String) (context : Context) :
    Except Cause (List Value) := do
  let locals ← context.locals
  expressions.mapM (machine.evaluate · locals)

/-- Carries out a command as a script uses it. -/
def command (machine : Machine) (use : CommandUse) (state : State) :
    Except Cause Executed × State :=
  match machine.evaluateAll use.arguments state.context with
  | .error cause => (.error cause, state)
  | .ok arguments =>
    match machine.dispatch ⟨use.result, use.expect⟩ use.name arguments state with
    | (.error cause, after) => (.error cause, after)
    | (.ok (.value value), after) => after.attempt .continues (store use.result value after.context)
    | (.ok (.degraded value fault), after) =>
      after.attempt (.degraded fault) (store use.result value after.context)
    | (.ok .transferred, after) => (.ok .continues, after)
    | (.ok (.returned none), after) => (.ok .continues, after)
    | (.ok (.returned (some fault)), after) => (.ok (.degraded fault), after)
    | (.ok (.finished value), after) => (.ok (.finished value), after)

/-! ## Steps -/

/-- Executes an operation. -/
def execute (machine : Machine) (operation : Operation) (state : State) :
    Except Cause Executed × State :=
  match operation with
  | .assign target expression =>
    state.attempt .continues (machine.assign target expression state.context)
  | .command use => machine.command use state
  | .branch condition otherwise =>
    state.attempt .continues (machine.branch condition otherwise state.context)
  | .jump target => state.attempt .continues (state.context.setIp target)
  | .loopStart condition exit =>
    state.attempt .continues (machine.loopStart condition exit state.context)
  | .loopEnd start => state.attempt .continues (state.context.setIp start)

/-- Executes an instruction. What goes wrong is placed at the instruction. -/
def stepAt (machine : Machine) (instruction : Instruction) (state : State) : Progress × State :=
  match machine.execute instruction.operation state with
  | (.error cause, after) => (.failed ⟨cause, some instruction.span⟩, after)
  | (.ok .continues, after) => (.running none, after)
  | (.ok (.degraded fault), after) => (.running (some ⟨.call fault, some instruction.span⟩), after)
  | (.ok (.finished value), after) => (.finished value, after)

/-- Ends the innermost frame because it stands behind its last instruction. -/
def stepOut (state : State) : Progress × State :=
  match state.leave with
  | (.error cause, after) => (.failed ⟨cause, none⟩, after)
  | (.ok (.finished value), after) => (.finished value, after)
  | (.ok (.returned fault), after) => (.running (fault.map fun fault => ⟨.call fault, none⟩), after)
  | (.ok _, after) => (.running none, after)

/-- Takes one step. -/
def step (machine : Machine) (state : State) : Progress × State :=
  match state.context.frames with
  | [] => (.failed ⟨.noFrame, none⟩, state)
  | frame :: _ =>
    match frame.script.instructions[frame.ip]? with
    | some instruction => machine.stepAt instruction state
    | none => stepOut state

/-- Takes one step of a run: the run goes on, or ends with a result and a last state. -/
def advance (machine : Machine) (run : Run) : Run ⊕ (Except Fault Outcome × State) :=
  match machine.step run.state with
  | (.running fault, after) => .inl ⟨after, run.steps + 1, fault.toList ++ run.degraded⟩
  | (.finished value, after) => .inr (.ok ⟨value, run.steps + 1, run.degraded.reverse⟩, after)
  | (.failed fault, after) => .inr (.error fault, after)

/-- Takes steps until the run ends, at most as many more as the second argument says. -/
def runWithin (machine : Machine) (limit : Nat) : Nat → Run → Except Fault Outcome × State
  | 0, run => (.error (run.overrun limit), run.state)
  | remaining + 1, run =>
    match machine.advance run with
    | .inl next => machine.runWithin limit remaining next
    | .inr ending => ending

/-- Takes steps until the run ends, at most `limit` of them. -/
def run (machine : Machine) (limit : Nat) (state : State) : Except Fault Outcome × State :=
  machine.runWithin limit limit ⟨state, 0, []⟩

end Machine

end ScriptEngine
