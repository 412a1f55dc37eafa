import Mathlib.Logic.Relation
import ScriptEngine.Proofs.Machine.Equations

/-!
# What a step does to the stacks

`Machine.Goes` relates the states before and after a step after which the run goes on. `Move` lists
what such a step can do to the stack of frames and to the stack of loops, together with the
operation that asked for it, and `Machine.Goes.move` says that there is nothing else. What every
run keeps is then shown by going through the moves.
-/

namespace ScriptEngine

/-- Whether an operation can be followed by the next one in the list without entering a loop. -/
def Operation.isPlain : Operation → Bool
  | .assign .. | .command _ | .branch .. => true
  | _ => false

/-- The operation at which a frame stands. -/
def Frame.operation? (frame : Frame) : Option Operation :=
  frame.script.instructions[frame.ip]?.map (·.operation)

/-- Whether the innermost of some loops is owned at a depth and tests its condition at an index. -/
def inOwnLoop (depth recheck : Nat) (loops : List LoopContext) : Bool :=
  (ownLoop? depth loops).any (·.recheck == recheck)

theorem inOwnLoop_iff {depth recheck : Nat} {loops : List LoopContext} :
    inOwnLoop depth recheck loops = true ↔
      ∃ loop rest, loops = loop :: rest ∧ loop.depth = depth ∧ loop.recheck = recheck := by
  simp only [inOwnLoop, Option.any_eq_true, ownLoop?_eq_some, beq_iff_eq]
  constructor
  · rintro ⟨loop, ⟨rest, hl, hd⟩, hr⟩
    exact ⟨loop, rest, hl, hd, hr⟩
  · rintro ⟨loop, rest, hl, hd, hr⟩
    exact ⟨loop, ⟨rest, hl, hd⟩, hr⟩

/-- The stacks that a step can lead to from a frame, its callers and the loops. -/
inductive Move (machine : Machine) (frame : Frame) (callers : List Frame)
    (loops : List LoopContext) : List Frame → List LoopContext → Prop
  /-- Goes on with the next instruction; a local may have changed. -/
  | next {operation : Operation} (locals : Dictionary Value)
      (stands : frame.operation? = some operation) (plain : operation.isPlain = true) :
      Move machine frame callers loops ({ frame with ip := frame.ip + 1, locals } :: callers) loops
  /-- Jumps, from a branch or from the end of one. -/
  | jump {target : Nat}
      (stands : frame.operation? = some (.jump target) ∨
        ∃ condition, frame.operation? = some (.branch condition target)) :
      Move machine frame callers loops ({ frame with ip := target } :: callers) loops
  /-- Goes into a loop from outside. -/
  | enterLoop {condition : String} {exit : Nat}
      (stands : frame.operation? = some (.loopStart condition exit))
      (outside : inOwnLoop (callers.length + 1) frame.ip loops = false) :
      Move machine frame callers loops ({ frame with ip := frame.ip + 1 } :: callers)
        (⟨frame.ip, exit, callers.length + 1⟩ :: loops)
  /-- Goes into the next round of a loop. -/
  | repeatLoop {condition : String} {exit : Nat}
      (stands : frame.operation? = some (.loopStart condition exit))
      (inside : inOwnLoop (callers.length + 1) frame.ip loops = true) :
      Move machine frame callers loops ({ frame with ip := frame.ip + 1 } :: callers) loops
  /-- Goes past a loop. -/
  | skipLoop {condition : String} {exit : Nat}
      (stands : frame.operation? = some (.loopStart condition exit))
      (outside : inOwnLoop (callers.length + 1) frame.ip loops = false) :
      Move machine frame callers loops ({ frame with ip := exit } :: callers) loops
  /-- Goes behind a loop after its last round. -/
  | leaveLoop {condition : String} {exit : Nat} {loop : LoopContext} {outer : List LoopContext}
      (stands : frame.operation? = some (.loopStart condition exit)) (split : loops = loop :: outer)
      (owned : loop.depth = callers.length + 1) (here : loop.recheck = frame.ip) :
      Move machine frame callers loops ({ frame with ip := exit } :: callers) outer
  /-- Goes back to the beginning of a loop. -/
  | endLoop {start : Nat} (stands : frame.operation? = some (.loopEnd start)) :
      Move machine frame callers loops ({ frame with ip := start } :: callers) loops
  | breakLoop {use : CommandUse} {loop : LoopContext} {outer : List LoopContext}
      (stands : frame.operation? = some (.command use)) (split : loops = loop :: outer)
      (owned : loop.depth = callers.length + 1) :
      Move machine frame callers loops ({ frame with ip := loop.exit } :: callers) outer
  | continueLoop {use : CommandUse} {loop : LoopContext} {outer : List LoopContext}
      (stands : frame.operation? = some (.command use)) (split : loops = loop :: outer)
      (owned : loop.depth = callers.length + 1) :
      Move machine frame callers loops ({ frame with ip := loop.recheck } :: callers) loops
  /-- Starts a script, for which there is room. -/
  | call {use : CommandUse} {target : String} {script : Script} (locals : Dictionary Value)
      (expected : DataType) (stands : frame.operation? = some (.command use))
      (loaded : machine.scripts.get? target = some script)
      (room : callers.length + 1 < machine.depthLimit) :
      Move machine frame callers loops
        ({ script, locals, resume := some ⟨frame.ip + 1, use.result, expected⟩ } ::
          frame :: callers) loops
  /-- Ends the frame, with a command or behind the last instruction. -/
  | finish {caller : Frame} {others : List Frame} {resume : ResumePoint} (value : Value)
      (called : callers = caller :: others) (resumes : frame.resume = some resume) :
      Move machine frame callers loops (caller.deliver resume value :: others)
        (loops.filter (·.depth ≤ callers.length))

namespace Machine

variable {machine : Machine}

/-- A step after which the run goes on. -/
def Goes (machine : Machine) (before after : State) : Prop :=
  ∃ degraded, machine.step before = (.running degraded, after)

/-- Any number of steps after which the run goes on. -/
def Reaches (machine : Machine) : State → State → Prop :=
  Relation.ReflTransGen machine.Goes

/-! ## Results of the parts of a step -/

theorem attempt_ok {α : Type} {state after : State} {result found : α}
    {tried : Except Cause Context} (h : state.attempt result tried = (.ok found, after)) :
    ∃ context, tried = .ok context ∧ after = { state with context } := by
  cases tried with
  | error cause => simp [State.attempt] at h
  | ok context =>
    simp only [State.attempt, Prod.mk.injEq] at h
    exact ⟨context, rfl, h.2.symm⟩

theorem stepAt_running {instruction : Instruction} {before after : State} {degraded : Option Fault}
    (h : machine.stepAt instruction before = (.running degraded, after)) :
    ∃ executed, machine.execute instruction.operation before = (.ok executed, after) ∧
      ∀ value, executed ≠ .finished value := by
  simp only [stepAt] at h
  split at h <;> simp only [Prod.mk.injEq, reduceCtorEq, false_and, Progress.running.injEq] at h
  · rename_i he
    exact ⟨.continues, by rw [he, h.2], by simp⟩
  · rename_i fault _ he
    exact ⟨.degraded fault, by rw [he, h.2], by simp⟩

end Machine

section

variable {machine : Machine} {identity : String} {frame : Frame} {callers : List Frame}
  {loops : List LoopContext} {timers : Dictionary Timer} {world : World} {after : State}

/-- A command that stores its result goes on with the next instruction. -/
theorem Move.of_store {use : CommandUse} {slot : Option String} {value : Value}
    {result executed : Executed} (stands : frame.operation? = some (.command use))
    (h : (⟨⟨identity, frame :: callers, loops, timers⟩, world⟩ : State).attempt result
      (Machine.store slot value ⟨identity, frame :: callers, loops, timers⟩) =
        (.ok executed, after)) :
    Move machine frame callers loops after.context.frames after.context.loops := by
  obtain ⟨context, hc, rfl⟩ := Machine.attempt_ok h
  rw [Machine.store_eq, Except.ok.injEq] at hc
  subst hc
  exact .next _ stands rfl

/-- What becomes of the stacks when a command is carried out: nothing if it leads to a value, a move
if it leads elsewhere. -/
def Dispatched.Moves (dispatched : Dispatched) (machine : Machine) (before after : Context) :
    Prop :=
  match dispatched with
  | .value _ | .degraded .. => after.frames = before.frames ∧ after.loops = before.loops
  | .finished _ => True
  | .transferred | .returned _ =>
    ∀ frame callers, before.frames = frame :: callers →
      Move machine frame callers before.loops after.frames after.loops

/-- The end of a frame, whatever its result. -/
theorem Machine.leave_moves {ended : Frame} {dispatched : Dispatched} {context : Context}
    (hr : ended.resume = frame.resume)
    (h : (⟨identity, ended :: callers, loops, timers⟩ : Context).leave = (.ok dispatched, context)) :
    dispatched.Moves machine ⟨identity, frame :: callers, loops, timers⟩ context := by
  cases callers with
  | nil =>
    rw [Context.leave_outermost, Prod.mk.injEq, Except.ok.injEq] at h
    rw [← h.1]
    trivial
  | cons caller others =>
    cases hs : ended.resume with
    | none => simp [Context.leave_stranded hs] at h
    | some resume =>
      rw [Context.leave_callee hs, Prod.mk.injEq, Except.ok.injEq] at h
      rw [← h.1, ← h.2]
      rintro _ _ ⟨⟩
      exact .finish _ rfl (hr ▸ hs)

theorem Machine.perform_move {use : CommandUse} {expect : Option DataType} {now : Nat}
    {action : Action} {dispatched : Dispatched} (stands : frame.operation? = some (.command use))
    (h : machine.perform ⟨use.result, expect⟩ now action
      ⟨⟨identity, frame :: callers, loops, timers⟩, world⟩ = (.ok dispatched, after)) :
    dispatched.Moves machine ⟨identity, frame :: callers, loops, timers⟩ after.context := by
  cases action with
  | value v =>
    simp only [perform, Prod.mk.injEq, Except.ok.injEq] at h
    obtain ⟨rfl, rfl⟩ := h
    exact ⟨rfl, rfl⟩
  | print message =>
    simp only [perform, Prod.mk.injEq, Except.ok.injEq] at h
    obtain ⟨rfl, rfl⟩ := h
    exact ⟨rfl, rfl⟩
  | secondsPassed =>
    simp only [perform, timePassed_eq, Prod.mk.injEq, Except.ok.injEq] at h
    obtain ⟨rfl, rfl⟩ := h
    exact ⟨rfl, rfl⟩
  | breakLoop =>
    rw [perform_breakLoop] at h
    cases ho : ownLoop? (callers.length + 1) loops with
    | none => simp [ho] at h
    | some loop =>
      obtain ⟨outer, rfl, hd⟩ := ownLoop?_eq_some.mp ho
      simp only [ho, Prod.mk.injEq, Except.ok.injEq] at h
      obtain ⟨rfl, rfl⟩ := h
      rintro _ _ ⟨⟩
      exact .breakLoop stands rfl hd
  | continueLoop =>
    simp only [perform] at h
    cases ho : ownLoop? (callers.length + 1) loops with
    | none =>
      rw [Context.continueLoop_outside ho] at h
      simp [State.attempt] at h
    | some loop =>
      obtain ⟨outer, rfl, hd⟩ := ownLoop?_eq_some.mp ho
      rw [Context.continueLoop_own hd] at h
      simp only [State.attempt, Prod.mk.injEq, Except.ok.injEq] at h
      obtain ⟨rfl, rfl⟩ := h
      rintro _ _ ⟨⟩
      exact .continueLoop stands rfl hd
  | finish v =>
    have hl : (⟨identity, { frame with pending := some v } :: callers, loops, timers⟩ :
        Context).leave = (.ok dispatched, after.context) := by
      simp only [perform, Context.setPending, Context.updateFrame, State.leave,
        Prod.mk.injEq] at h
      rw [← h.2, ← h.1]
    have hr : { frame with pending := some v }.resume = frame.resume := rfl
    exact leave_moves hr hl
  | call target arguments =>
    rw [perform_call] at h
    cases hs : machine.startOf ⟨use.result, expect⟩ target arguments (callers.length + 1) with
    | inl degraded =>
      simp only [hs, Prod.mk.injEq, Except.ok.injEq] at h
      obtain ⟨rfl, rfl⟩ := h
      exact ⟨rfl, rfl⟩
    | inr started =>
      simp only [hs, Prod.mk.injEq, Except.ok.injEq] at h
      obtain ⟨rfl, rfl⟩ := h
      rintro _ _ ⟨⟩
      exact .call _ _ stands (startOf_loaded _ hs) (startOf_room _ hs)

theorem Machine.command_move {use : CommandUse} {executed : Executed}
    (stands : frame.operation? = some (.command use))
    (h : machine.command use ⟨⟨identity, frame :: callers, loops, timers⟩, world⟩ =
      (.ok executed, after)) (hx : ∀ value, executed ≠ .finished value) :
    Move machine frame callers loops after.context.frames after.context.loops := by
  simp only [command, evaluateAll_eq] at h
  cases ha : use.arguments.mapM (machine.evaluate · frame.locals) with
  | error cause => simp [ha] at h
  | ok arguments =>
    simp only [ha, dispatch_eq] at h
    cases hq : machine.commands.request identity use.name arguments world with
    | mk result world' =>
      cases result with
      | error cause => simp [hq] at h
      | ok action =>
        simp only [hq] at h
        generalize hp : machine.perform ⟨use.result, use.expect⟩ world.readClock.1 action
          ⟨⟨identity, frame :: callers, loops, timers⟩, world'⟩ = performed at h
        obtain ⟨result, performed⟩ := performed
        cases result with
        | error cause => simp at h
        | ok dispatched =>
          have hm := perform_move stands hp
          obtain ⟨⟨identity', frames', loops', timers'⟩, world''⟩ := performed
          cases dispatched with
          | value v =>
            simp only [Dispatched.Moves] at hm
            obtain ⟨rfl, rfl⟩ := hm
            exact .of_store stands h
          | degraded v fault =>
            simp only [Dispatched.Moves] at hm
            obtain ⟨rfl, rfl⟩ := hm
            exact .of_store stands h
          | transferred =>
            simp only [Prod.mk.injEq] at h
            rw [← h.2]
            exact hm _ _ rfl
          | returned fault =>
            cases fault <;> simp only [Prod.mk.injEq] at h <;> rw [← h.2] <;> exact hm _ _ rfl
          | finished v =>
            simp only [Prod.mk.injEq, Except.ok.injEq] at h
            exact absurd h.1.symm (hx v)

theorem Machine.loopStart_move {condition : String} {exit : Nat} {context : Context}
    (stands : frame.operation? = some (.loopStart condition exit))
    (h : machine.loopStart condition exit ⟨identity, frame :: callers, loops, timers⟩ =
      .ok context) : Move machine frame callers loops context.frames context.loops := by
  cases hv : machine.evaluate condition frame.locals with
  | error cause => simp [loopStart_error machine hv] at h
  | ok value =>
    cases ht : value.isTruthy with
    | true =>
      cases hl : inOwnLoop (callers.length + 1) frame.ip loops with
      | true =>
        rw [loopStart_repeat machine hv ht hl, Except.ok.injEq] at h
        rw [← h]
        exact .repeatLoop stands hl
      | false =>
        rw [loopStart_enter machine hv ht hl, Except.ok.injEq] at h
        rw [← h]
        exact .enterLoop stands hl
    | false =>
      cases hl : inOwnLoop (callers.length + 1) frame.ip loops with
      | true =>
        obtain ⟨loop, outer, rfl, hd, hr⟩ := inOwnLoop_iff.mp hl
        rw [loopStart_leave machine hv ht hd hr, Except.ok.injEq] at h
        rw [← h]
        exact .leaveLoop stands rfl hd hr
      | false =>
        rw [loopStart_skip machine hv ht hl, Except.ok.injEq] at h
        rw [← h]
        exact .skipLoop stands hl

theorem Machine.execute_move {operation : Operation} {executed : Executed}
    (stands : frame.operation? = some operation)
    (h : machine.execute operation ⟨⟨identity, frame :: callers, loops, timers⟩, world⟩ =
      (.ok executed, after)) (hx : ∀ value, executed ≠ .finished value) :
    Move machine frame callers loops after.context.frames after.context.loops := by
  cases operation with
  | command use => exact command_move stands h hx
  | assign target expression =>
    obtain ⟨context, hc, rfl⟩ := attempt_ok h
    rw [assign_eq] at hc
    cases hv : machine.evaluate expression frame.locals with
    | error cause => simp [hv, Except.map] at hc
    | ok value =>
      simp only [hv, Except.map, Except.ok.injEq] at hc
      subst hc
      exact .next _ stands rfl
  | branch condition otherwise =>
    obtain ⟨context, hc, rfl⟩ := attempt_ok h
    rw [branch_eq] at hc
    cases hv : machine.evaluate condition frame.locals with
    | error cause => simp [hv, Except.map] at hc
    | ok value =>
      simp only [hv, Except.map, Except.ok.injEq] at hc
      subst hc
      cases value.isTruthy with
      | true => exact .next frame.locals stands rfl
      | false => exact .jump (.inr ⟨condition, stands⟩)
  | jump target =>
    cases h
    exact .jump (.inl stands)
  | loopStart condition exit =>
    obtain ⟨context, hc, rfl⟩ := attempt_ok h
    exact loopStart_move stands hc
  | loopEnd start =>
    cases h
    exact .endLoop stands

theorem Machine.stepOut_move {degraded : Option Fault}
    (h : stepOut ⟨⟨identity, frame :: callers, loops, timers⟩, world⟩ =
      (.running degraded, after)) :
    Move machine frame callers loops after.context.frames after.context.loops := by
  cases callers with
  | nil => simp [stepOut, State.leave, Context.leave_outermost] at h
  | cons caller others =>
    cases hs : frame.resume with
    | none => simp [stepOut, State.leave, Context.leave_stranded hs] at h
    | some resume =>
      simp only [stepOut, State.leave, Context.leave_callee hs, Prod.mk.injEq] at h
      rw [← h.2]
      exact .finish _ rfl hs

/-- A step after which the run goes on makes one of the moves. -/
theorem Machine.Goes.move {before : State} (h : machine.Goes before after)
    (hf : before.context.frames = frame :: callers) :
    Move machine frame callers before.context.loops after.context.frames after.context.loops := by
  obtain ⟨degraded, h⟩ := h
  obtain ⟨⟨identity, frames, loops, timers⟩, world⟩ := before
  simp only at hf
  subst hf
  cases hi : frame.script.instructions[frame.ip]? with
  | some instruction =>
    rw [step_at machine rfl hi] at h
    obtain ⟨executed, he, hx⟩ := stepAt_running h
    exact execute_move (by simp [Frame.operation?, hi]) he hx
  | none =>
    rw [step_behind machine rfl hi] at h
    exact stepOut_move h

theorem Machine.Goes.frames {before : State} (h : machine.Goes before after) :
    ∃ frame callers, before.context.frames = frame :: callers := by
  obtain ⟨degraded, h⟩ := h
  cases hf : before.context.frames with
  | nil => simp [step, hf] at h
  | cons frame callers => exact ⟨frame, callers, rfl⟩

end

/-- What holds of every frame at its start and depends neither on its next instruction nor on its
locals holds of all frames. -/
theorem Move.forall_frame {machine : Machine} {frame : Frame} {callers frames' : List Frame}
    {loops loops' : List LoopContext} {P : Frame → Prop}
    (h : Move machine frame callers loops frames' loops')
    (start : ∀ target script locals resume, machine.scripts.get? target = some script →
      P { script, locals, resume })
    (stay : ∀ frame ip locals, P frame → P { frame with ip, locals })
    (all : ∀ each ∈ frame :: callers, P each) : ∀ each ∈ frames', P each := by
  obtain ⟨hframe, hcallers⟩ := List.forall_mem_cons.mp all
  cases h with
  | call locals expected stands loaded =>
    exact List.forall_mem_cons.mpr ⟨start _ _ locals _ loaded, all⟩
  | finish value called =>
    subst called
    obtain ⟨hcaller, hothers⟩ := List.forall_mem_cons.mp hcallers
    exact List.forall_mem_cons.mpr ⟨stay _ _ _ hcaller, hothers⟩
  | next locals => exact List.forall_mem_cons.mpr ⟨stay _ _ locals hframe, hcallers⟩
  | _ => exact List.forall_mem_cons.mpr ⟨stay _ _ frame.locals hframe, hcallers⟩

/-! ## States of a run -/

/-- The states between two steps of a run or background run of a script. -/
def Engine.Reachable (engine : Engine) (state : State) : Prop :=
  ∃ name arguments context timers world, engine.prepare name arguments = .ok context ∧
    engine.machine.Reaches ⟨context.withTimers timers, world⟩ state

theorem Engine.build_ok {scripts : Dictionary Script} {options : EngineOptions} {engine : Engine}
    (h : build scripts options = .ok engine) :
    scripts.values.findSome? (unknownCommand? options.commands) = none ∧
      engine = ⟨⟨options.commands, scripts, max 1 options.depth, options.evaluate⟩,
        max 1 options.steps, .empty⟩ := by
  unfold build at h
  cases hu : scripts.values.findSome? (unknownCommand? options.commands) with
  | some fault => simp [hu] at h
  | none =>
    simp only [hu, Except.ok.injEq] at h
    exact ⟨rfl, h.symm⟩

theorem Engine.prepare_ok {engine : Engine} {name : String} {arguments : List Value}
    {context : Context} (h : engine.prepare name arguments = .ok context) :
    ∃ script bindings, engine.machine.scripts.get? name = some script ∧
      matchArguments script.name script.arity arguments = .ok bindings ∧
      context = Context.start script (script.bind bindings) := by
  unfold prepare at h
  split at h
  · cases h
  · rename_i script hs
    cases hb : matchArguments script.name script.arity arguments with
    | error cause => simp [hb, bind, Except.bind] at h
    | ok bindings =>
      simp only [hb, bind, Except.bind, pure, Except.pure, Except.ok.injEq] at h
      exact ⟨script, bindings, hs, hb, h.symm⟩

theorem Engine.Reachable.reaches {engine : Engine} {state later : State} (h : engine.Reachable state)
    (hr : engine.machine.Reaches state later) : engine.Reachable later := by
  obtain ⟨name, arguments, context, timers, world, hp, hs⟩ := h
  exact ⟨name, arguments, context, timers, world, hp, hs.trans hr⟩

/-- What holds when a script starts and is kept by every step holds in all states of a run. -/
theorem Engine.Reachable.keeps {engine : Engine} {state : State} (h : engine.Reachable state)
    {P : State → Prop}
    (start : ∀ name script locals timers world, engine.machine.scripts.get? name = some script →
      P ⟨(Context.start script locals).withTimers timers, world⟩)
    (step : ∀ before after, P before → engine.machine.Goes before after → P after) : P state := by
  obtain ⟨name, arguments, context, timers, world, hp, hr⟩ := h
  obtain ⟨script, bindings, hs, -, rfl⟩ := prepare_ok hp
  induction hr with
  | refl => exact start _ _ _ _ _ hs
  | tail _ hg ih => exact step _ _ ih hg

theorem Engine.Reachable.forall_frame {engine : Engine} {state : State} {P : Frame → Prop}
    (h : engine.Reachable state)
    (start : ∀ target script locals resume, engine.machine.scripts.get? target = some script →
      P { script, locals, resume })
    (stay : ∀ frame ip locals, P frame → P { frame with ip, locals }) :
    ∀ frame ∈ state.context.frames, P frame := by
  refine h.keeps (P := fun state => ∀ frame ∈ state.context.frames, P frame)
    (fun name script locals timers world hs => ?_) fun before after hb hg => ?_
  · exact List.forall_mem_singleton.mpr (start name script locals none hs)
  · obtain ⟨frame, callers, hf⟩ := hg.frames
    exact (hg.move hf).forall_frame start stay (hf ▸ hb)

end ScriptEngine
