import ScriptEngine.Dictionary
import ScriptEngine.Fault
import ScriptEngine.Machine.Timer
import ScriptEngine.Script.Basic

/-!
# The state of a run

A run has a stack of frames, one for each script that is being executed, a stack of loops, each
owned by a frame, and a timer for every script that asked for the time. Both stacks list the
innermost entry first.

An operation that fails leaves the context as it was, with two exceptions, which return a context in
any case. `Context.finishFrame` removes the frame before it can find that there is nowhere to go on,
and `Context.breakOut` removes the loop before it can find that there is no frame.
-/

namespace ScriptEngine

/-- Where a caller goes on when the frame it called has finished. -/
structure ResumePoint where
  ip : Nat
  /-- The local that takes the result. -/
  slot : Option String
  /-- The type that the result is to have. -/
  expected : DataType
  deriving DecidableEq, Repr

/-- A script that is being executed. -/
structure Frame where
  script : Script
  /-- The index of the next instruction. -/
  ip : Nat := 0
  locals : Dictionary Value := .empty
  /-- The result, once it is known. -/
  pending : Option Value := none
  resume : Option ResumePoint := none
  deriving DecidableEq, Repr

/-- A caller after the result of a call was delivered to it. -/
def Frame.deliver (caller : Frame) (resume : ResumePoint) (value : Value) : Frame :=
  let locals := match resume.slot with
    | some slot => caller.locals.insert slot (value.coerce resume.expected)
    | none => caller.locals
  { caller with ip := resume.ip, locals }

/-- A loop that is being executed. -/
structure LoopContext where
  /-- The index of the instruction that tests the condition. -/
  recheck : Nat
  /-- The index of the instruction behind the loop. -/
  exit : Nat
  /-- The number of frames up to the one that owns the loop. -/
  depth : Nat
  deriving DecidableEq, Repr

/-- How a frame ended. -/
inductive FrameExit
  /-- It was the outermost one. -/
  | finished (value : Value)
  /-- The caller goes on. The last field is the type of a result that was not admitted. -/
  | resumed (callee : String) (expected : DataType) (coercedFrom : Option DataType)
  deriving DecidableEq, Repr

/-- The state of one run. -/
structure Context where
  /-- The name of the script that was started. -/
  identity : String
  frames : List Frame
  loops : List LoopContext := []
  timers : Dictionary Timer
  deriving DecidableEq, Repr

namespace Context

/-- The context at the start of a script. -/
def start (entry : Script) (locals : Dictionary Value) : Context where
  identity := entry.name
  frames := [{ script := entry, locals }]
  timers := Dictionary.empty.insert entry.name {}

/-- Takes over the timers of earlier runs. -/
def withTimers (context : Context) (timers : Dictionary Timer) : Context :=
  { context with timers := context.timers.union timers }

/-- The number of frames. -/
def depth (context : Context) : Nat :=
  context.frames.length

/-- Whether no frame is left. -/
def isFinished (context : Context) : Bool :=
  context.frames.isEmpty

/-! ## The current frame -/

/-- The innermost frame. -/
def currentFrame (context : Context) : Except Cause Frame :=
  match context.frames with
  | [] => .error .noFrame
  | frame :: _ => .ok frame

/-- Changes the innermost frame. -/
def updateFrame (context : Context) (change : Frame → Frame) : Except Cause Context :=
  match context.frames with
  | [] => .error .noFrame
  | frame :: callers => .ok { context with frames := change frame :: callers }

/-- The index of the next instruction. -/
def ip (context : Context) : Except Cause Nat :=
  context.currentFrame.map (·.ip)

/-- The locals of the innermost frame. -/
def locals (context : Context) : Except Cause (Dictionary Value) :=
  context.currentFrame.map (·.locals)

/-- A local of the innermost frame. -/
def local? (context : Context) (name : String) : Option Value :=
  context.frames.head?.bind (·.locals.get? name)

/-- Goes to an instruction. -/
def setIp (context : Context) (ip : Nat) : Except Cause Context :=
  context.updateFrame fun frame => { frame with ip }

/-- Goes to the next instruction. -/
def advance (context : Context) : Except Cause Context :=
  context.updateFrame fun frame => { frame with ip := frame.ip + 1 }

/-- Gives a local a value. -/
def setLocal (context : Context) (name : String) (value : Value) : Except Cause Context :=
  context.updateFrame fun frame => { frame with locals := frame.locals.insert name value }

/-- Sets the result of the innermost frame. -/
def setPending (context : Context) (value : Value) : Except Cause Context :=
  context.updateFrame fun frame => { frame with pending := some value }

/-! ## Loops -/

/-- The innermost loop, if the innermost frame owns it. -/
def currentLoop? (context : Context) : Option LoopContext :=
  context.loops.head?.filter (·.depth == context.depth)

/-- Whether the innermost loop is the one whose condition stands at an index. -/
def isInLoop (context : Context) (recheck : Nat) : Bool :=
  context.currentLoop?.any (·.recheck == recheck)

/-- Enters a loop, unless it is the innermost one already. -/
def enterLoop (context : Context) (recheck exit : Nat) : Except Cause Context :=
  if context.depth = 0 then
    .error .noFrame
  else if context.isInLoop recheck then
    .ok context
  else
    .ok { context with loops := ⟨recheck, exit, context.depth⟩ :: context.loops }

/-- Removes the innermost loop. -/
def popLoop (context : Context) (request : LoopRequest) : Except Cause (LoopContext × Context) :=
  match context.currentLoop? with
  | some innermost => .ok (innermost, { context with loops := context.loops.tail })
  | none => .error (.outsideLoop request)

/-- Removes the innermost loop because its condition no longer holds. -/
def exitLoop (context : Context) : Except Cause (LoopContext × Context) :=
  context.popLoop .leave

/-- Leaves the innermost loop and goes behind its end. -/
def breakOut (context : Context) : Except Cause Unit × Context :=
  match context.popLoop .breakOut with
  | .error cause => (.error cause, context)
  | .ok (innermost, outside) =>
    match outside.setIp innermost.exit with
    | .error cause => (.error cause, outside)
    | .ok behind => (.ok (), behind)

/-- The context behind the innermost loop, if that can be left. -/
def breakLoop (context : Context) : Except Cause Context :=
  context.breakOut.1.map fun _ => context.breakOut.2

/-- Goes back to the condition of the innermost loop. -/
def continueLoop (context : Context) : Except Cause Context :=
  match context.currentLoop? with
  | some innermost => context.setIp innermost.recheck
  | none => .error (.outsideLoop .resume)

/-! ## Calls -/

/-- Starts a script on top of the others. -/
def pushFrame (context : Context) (script : Script) (locals : Dictionary Value)
    (resume : ResumePoint) : Context :=
  { context with frames := { script, locals, resume := some resume } :: context.frames }

/-- The type of a result that is discarded because the caller does not admit it. -/
def discardedType (expected : DataType) (value : Value) : Option DataType :=
  if !expected.admits value && !value.isInvalid then some value.dataType else none

/-- Removes the innermost frame with its loops and hands its result to the caller. -/
def finishFrame (context : Context) : Except Cause FrameExit × Context :=
  match context.frames with
  | [] => (.error .noFrame, context)
  | frame :: callers =>
    let loops := context.loops.filter (·.depth ≤ callers.length)
    let value := frame.pending.getD .invalid
    match callers, frame.resume with
    | [], _ => (.ok (.finished value), { context with frames := [], loops })
    | _ :: _, none =>
      (.error (.noResumePoint frame.script.name), { context with frames := callers, loops })
    | caller :: others, some resume =>
      (.ok (.resumed frame.script.name resume.expected (discardedType resume.expected value)),
        { context with frames := caller.deliver resume value :: others, loops })

/-! ## Time -/

/-- The time since the script of the innermost frame last asked for it. -/
def timePassed (context : Context) (now : Nat) : Except Cause (Nat × Context) := do
  let frame ← context.currentFrame
  let (elapsed, timer) := ((context.timers.get? frame.script.name).getD {}).tick now
  return (elapsed, { context with timers := context.timers.insert frame.script.name timer })

end Context

end ScriptEngine
