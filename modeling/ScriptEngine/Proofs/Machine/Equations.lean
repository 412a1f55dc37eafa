import ScriptEngine.Engine.Basic
import ScriptEngine.Proofs.Except

/-!
# The machine at a given frame

Equations for the operations of the machine on a context whose innermost frame is known. The later
proofs rewrite with these and do not open the operations:

* `holds_eq`, `assign_eq`, `branch_eq`, `evaluateAll_eq`, `store_eq`: instructions and parts of them
  that move only the innermost frame;
* `loopStart_enter`, `loopStart_repeat`, `loopStart_leave`, `loopStart_skip`: the four ways over the
  beginning of a loop, by its condition and by whether the loop is the innermost one;
* `perform_breakLoop`, `continueLoop_own`, `continueLoop_outside`: leaving and continuing a loop, and
  their failures outside of a loop;
* `continueLoop_redirects`, `loopStart_redirects`: neither of these changes more than the next
  instruction of the innermost frame and the loops;
* `leave_outermost`, `leave_callee`: the end of a frame;
* `dispatch_eq`: a command is looked up and its arguments are matched, then the clock is read and
  the handler is asked (`CommandTable.request`), then what it asks for is done;
* `stepAt_command`: the step of a command, by what became of it (`Machine.settle`).
-/

namespace ScriptEngine

variable {identity : String} {frame : Frame} {callers : List Frame} {loops : List LoopContext}
  {timers : Dictionary Timer}

/-- The innermost of some loops, if it belongs to a depth. -/
def ownLoop? (depth : Nat) (loops : List LoopContext) : Option LoopContext :=
  loops.head?.filter (·.depth == depth)

theorem ownLoop?_eq_some {depth : Nat} {loop : LoopContext} :
    ownLoop? depth loops = some loop ↔ ∃ rest, loops = loop :: rest ∧ loop.depth = depth := by
  cases loops with
  | nil => simp [ownLoop?]
  | cons first rest =>
    simp only [ownLoop?, List.head?_cons, Option.filter_eq_some_iff, Option.some.injEq, beq_iff_eq,
      List.cons.injEq]
    constructor
    · rintro ⟨rfl, h⟩
      exact ⟨rest, ⟨rfl, rfl⟩, h⟩
    · rintro ⟨_, ⟨rfl, -⟩, h⟩
      exact ⟨rfl, h⟩

theorem ownLoop?_cons {depth : Nat} {loop : LoopContext} (h : loop.depth = depth) :
    ownLoop? depth (loop :: loops) = some loop :=
  ownLoop?_eq_some.mpr ⟨loops, rfl, h⟩

/-- Loops that all belong to smaller depths are none of a frame's own. -/
theorem ownLoop?_eq_none {depth : Nat} (h : ∀ loop ∈ loops, loop.depth < depth) :
    ownLoop? depth loops = none := by
  cases loops with
  | nil => rfl
  | cons first rest =>
    have := h first (List.mem_cons_self ..)
    simp only [ownLoop?, List.head?_cons, Option.filter_some, beq_iff_eq,
      show ¬ first.depth = depth by omega, if_false]

/-- Loops of a frame and of its callers, of which the ones below a bound are kept. -/
theorem filter_keeps {floor bound : Nat} (own : List LoopContext)
    (hl : ∀ loop ∈ loops, loop.depth ≤ floor) (hb : floor ≤ bound) :
    (own ++ loops).filter (·.depth ≤ bound) = own.filter (·.depth ≤ bound) ++ loops := by
  have hk : loops.filter (·.depth ≤ bound) = loops :=
    List.filter_eq_self.mpr fun loop hm => by simpa using Nat.le_trans (hl loop hm) hb
  rw [List.filter_append, hk]

theorem filter_above {floor : Nat} {own : List LoopContext}
    (hl : ∀ loop ∈ loops, loop.depth ≤ floor) (ho : ∀ loop ∈ own, floor < loop.depth) :
    (own ++ loops).filter (·.depth ≤ floor) = loops := by
  have hn : own.filter (·.depth ≤ floor) = [] :=
    List.filter_eq_nil_iff.mpr fun loop hm => by simpa using ho loop hm
  rw [filter_keeps own hl (Nat.le_refl _), hn, List.nil_append]

namespace Context

theorem currentLoop?_eq : (⟨identity, frame :: callers, loops, timers⟩ : Context).currentLoop? =
    ownLoop? (callers.length + 1) loops := rfl

theorem isInLoop_eq {recheck : Nat} :
    (⟨identity, frame :: callers, loops, timers⟩ : Context).isInLoop recheck =
      (ownLoop? (callers.length + 1) loops).any (·.recheck == recheck) := rfl

theorem continueLoop_own {loop : LoopContext} (h : loop.depth = callers.length + 1) :
    (⟨identity, frame :: callers, loop :: loops, timers⟩ : Context).continueLoop =
      .ok ⟨identity, { frame with ip := loop.recheck } :: callers, loop :: loops, timers⟩ := by
  simp only [continueLoop, currentLoop?_eq, ownLoop?_cons h]
  rfl

theorem continueLoop_outside (h : ownLoop? (callers.length + 1) loops = none) :
    (⟨identity, frame :: callers, loops, timers⟩ : Context).continueLoop =
      .error (.outsideLoop .resume) := by
  simp only [continueLoop, currentLoop?_eq, h]

/-- A context in which only the next instruction of the innermost frame and the loops are others. -/
def Redirects (before after : Context) : Prop :=
  ∃ frame callers target loops, before.frames = frame :: callers ∧
    after = { before with frames := { frame with ip := target } :: callers, loops }

theorem continueLoop_redirects {context : Context}
    (h : (⟨identity, frame :: callers, loops, timers⟩ : Context).continueLoop = .ok context) :
    Redirects ⟨identity, frame :: callers, loops, timers⟩ context := by
  cases ho : ownLoop? (callers.length + 1) loops with
  | none => simp [continueLoop_outside ho] at h
  | some loop =>
    obtain ⟨outer, rfl, hd⟩ := ownLoop?_eq_some.mp ho
    rw [continueLoop_own hd, Except.ok.injEq] at h
    exact ⟨frame, callers, loop.recheck, loop :: outer, rfl, h.symm⟩

theorem leave_outermost :
    (⟨identity, [frame], loops, timers⟩ : Context).leave =
      (.ok (.finished (frame.pending.getD .invalid)),
        ⟨identity, [], loops.filter (·.depth ≤ 0), timers⟩) := rfl

theorem leave_callee {caller : Frame} {resume : ResumePoint} (h : frame.resume = some resume) :
    (⟨identity, frame :: caller :: callers, loops, timers⟩ : Context).leave =
      (.ok (.returned ((discardedType resume.expected (frame.pending.getD .invalid)).map
          (.discarded frame.script.name · resume.expected))),
        ⟨identity, caller.deliver resume (frame.pending.getD .invalid) :: callers,
          loops.filter (·.depth ≤ (caller :: callers).length), timers⟩) := by
  simp only [leave, finishFrame, h]

theorem leave_stranded {caller : Frame} (h : frame.resume = none) :
    (⟨identity, frame :: caller :: callers, loops, timers⟩ : Context).leave =
      (.error (.noResumePoint frame.script.name),
        ⟨identity, caller :: callers, loops.filter (·.depth ≤ (caller :: callers).length),
          timers⟩) := by
  simp only [leave, finishFrame, h]

end Context

/-- What a command asks for, and the surroundings afterwards: the clock is read once the command is
known and its arguments are matched. -/
def CommandTable.request (commands : CommandTable) (identity name : String) (arguments : List Value)
    (world : World) : Except Cause Action × World :=
  match commands.lookup name with
  | none => (.error (.unknownCommand name), world)
  | some command =>
    match matchArguments command.name command.arity arguments with
    | .error cause => (.error cause, world)
    | .ok bindings =>
      (command.handler ⟨command.name, bindings, identity, world.readClock.1⟩, world.readClock.2)

/-! ## Instructions -/

namespace Machine

variable (machine : Machine)

theorem holds_eq (condition : String) :
    machine.holds condition ⟨identity, frame :: callers, loops, timers⟩ =
      (machine.evaluate condition frame.locals).map (·.isTruthy) := by
  show (machine.evaluate condition frame.locals).bind _ = _
  cases machine.evaluate condition frame.locals <;> rfl

theorem assign_eq (target expression : String) :
    machine.assign target expression ⟨identity, frame :: callers, loops, timers⟩ =
      (machine.evaluate expression frame.locals).map fun value =>
        ⟨identity,
          { frame with ip := frame.ip + 1, locals := frame.locals.insert target value } :: callers,
          loops, timers⟩ := by
  show (machine.evaluate expression frame.locals).bind _ = _
  cases machine.evaluate expression frame.locals <;> rfl

theorem branch_eq (condition : String) (otherwise : Nat) :
    machine.branch condition otherwise ⟨identity, frame :: callers, loops, timers⟩ =
      (machine.evaluate condition frame.locals).map fun value =>
        ⟨identity,
          { frame with ip := if value.isTruthy then frame.ip + 1 else otherwise } :: callers,
          loops, timers⟩ := by
  simp only [branch, holds_eq]
  cases machine.evaluate condition frame.locals with
  | error cause => rfl
  | ok value => cases h : value.isTruthy <;> simp [h, bind, Except.bind, Except.map] <;> rfl

theorem store_eq (slot : Option String) (value : Value) :
    store slot value ⟨identity, frame :: callers, loops, timers⟩ =
      .ok ⟨identity,
        { frame with
          ip := frame.ip + 1
          locals := (slot.map (frame.locals.insert · value)).getD frame.locals } :: callers,
        loops, timers⟩ := by
  cases slot <;> rfl

theorem evaluateAll_eq (expressions : List String) :
    machine.evaluateAll expressions ⟨identity, frame :: callers, loops, timers⟩ =
      expressions.mapM (machine.evaluate · frame.locals) := rfl

variable {condition : String} {exit : Nat} {value : Value}

theorem loopStart_error {cause : Cause} (hv : machine.evaluate condition frame.locals = .error cause) :
    machine.loopStart condition exit ⟨identity, frame :: callers, loops, timers⟩ = .error cause := by
  simp only [loopStart, holds_eq, hv]
  rfl

/-- Into a loop from outside. -/
theorem loopStart_enter (hv : machine.evaluate condition frame.locals = .ok value)
    (ht : value.isTruthy = true)
    (hl : (ownLoop? (callers.length + 1) loops).any (·.recheck == frame.ip) = false) :
    machine.loopStart condition exit ⟨identity, frame :: callers, loops, timers⟩ =
      .ok ⟨identity, { frame with ip := frame.ip + 1 } :: callers,
        ⟨frame.ip, exit, callers.length + 1⟩ :: loops, timers⟩ := by
  simp only [loopStart, holds_eq, hv, Except.map, ht, Context.ip, Context.currentFrame, bind,
    Except.bind, Context.enterLoop, Context.isInLoop_eq, hl, Context.depth, List.length_cons,
    Nat.add_one_ne_zero, if_true, if_false, Bool.false_eq_true]
  rfl

/-- Into the next round of a loop. -/
theorem loopStart_repeat (hv : machine.evaluate condition frame.locals = .ok value)
    (ht : value.isTruthy = true)
    (hl : (ownLoop? (callers.length + 1) loops).any (·.recheck == frame.ip) = true) :
    machine.loopStart condition exit ⟨identity, frame :: callers, loops, timers⟩ =
      .ok ⟨identity, { frame with ip := frame.ip + 1 } :: callers, loops, timers⟩ := by
  simp only [loopStart, holds_eq, hv, Except.map, ht, Context.ip, Context.currentFrame, bind,
    Except.bind, Context.enterLoop, Context.isInLoop_eq, hl, Context.depth, List.length_cons,
    Nat.add_one_ne_zero, if_true, if_false]
  rfl

/-- Out of a loop after its last round. -/
theorem loopStart_leave {loop : LoopContext}
    (hv : machine.evaluate condition frame.locals = .ok value) (ht : value.isTruthy = false)
    (hd : loop.depth = callers.length + 1) (hr : loop.recheck = frame.ip) :
    machine.loopStart condition exit ⟨identity, frame :: callers, loop :: loops, timers⟩ =
      .ok ⟨identity, { frame with ip := exit } :: callers, loops, timers⟩ := by
  simp only [loopStart, holds_eq, hv, Except.map, ht, Context.ip, Context.currentFrame, bind,
    Except.bind, Context.isInLoop_eq, ownLoop?_cons hd, Option.any_some, hr, beq_self_eq_true,
    Context.exitLoop, Context.popLoop, Context.currentLoop?_eq, if_true, if_false,
    Bool.false_eq_true]
  rfl

/-- Past a loop without a round. -/
theorem loopStart_skip (hv : machine.evaluate condition frame.locals = .ok value)
    (ht : value.isTruthy = false)
    (hl : (ownLoop? (callers.length + 1) loops).any (·.recheck == frame.ip) = false) :
    machine.loopStart condition exit ⟨identity, frame :: callers, loops, timers⟩ =
      .ok ⟨identity, { frame with ip := exit } :: callers, loops, timers⟩ := by
  simp only [loopStart, holds_eq, hv, Except.map, ht, Context.ip, Context.currentFrame, bind,
    Except.bind, Context.isInLoop_eq, hl, if_false, Bool.false_eq_true]
  rfl

theorem loopStart_redirects {context : Context}
    (h : machine.loopStart condition exit ⟨identity, frame :: callers, loops, timers⟩ =
      .ok context) :
    Context.Redirects ⟨identity, frame :: callers, loops, timers⟩ context := by
  cases hv : machine.evaluate condition frame.locals with
  | error cause => simp [loopStart_error machine hv] at h
  | ok value =>
    cases ht : value.isTruthy with
    | true =>
      cases hl : (ownLoop? (callers.length + 1) loops).any (·.recheck == frame.ip) with
      | true =>
        rw [loopStart_repeat machine hv ht hl, Except.ok.injEq] at h
        exact ⟨frame, callers, _, _, rfl, h.symm⟩
      | false =>
        rw [loopStart_enter machine hv ht hl, Except.ok.injEq] at h
        exact ⟨frame, callers, _, _, rfl, h.symm⟩
    | false =>
      cases hl : (ownLoop? (callers.length + 1) loops).any (·.recheck == frame.ip) with
      | true =>
        obtain ⟨loop, ho, hr⟩ := Option.any_eq_true _ _ |>.mp hl
        obtain ⟨outer, rfl, hd⟩ := ownLoop?_eq_some.mp ho
        rw [loopStart_leave machine hv ht hd (beq_iff_eq.mp hr), Except.ok.injEq] at h
        exact ⟨frame, callers, _, _, rfl, h.symm⟩
      | false =>
        rw [loopStart_skip machine hv ht hl, Except.ok.injEq] at h
        exact ⟨frame, callers, _, _, rfl, h.symm⟩

/-! ## Commands -/

theorem dispatch_eq (site : CallSite) (name : String) (arguments : List Value) (state : State) :
    machine.dispatch site name arguments state =
      match machine.commands.request state.context.identity name arguments state.world with
      | (.error cause, world) => (.error cause, { state with world })
      | (.ok action, world) =>
        machine.perform site state.world.readClock.1 action { state with world } := by
  unfold dispatch CommandTable.request
  cases machine.commands.lookup name with
  | none => rfl
  | some command =>
    dsimp only
    cases matchArguments command.name command.arity arguments with
    | error cause => rfl
    | ok bindings =>
      dsimp only
      cases command.handler
        ⟨command.name, bindings, state.context.identity, state.world.readClock.1⟩ <;> rfl

/-- Whether and with what a call can start: the script, its locals, and the type that is expected of
its result, or else the value and the fault of a degraded call. -/
def startOf (site : CallSite) (target : String) (arguments : List Value) (depth : Nat) :
    (Value × CallFault) ⊕ (Script × Dictionary Value × DataType) :=
  match machine.scripts.get? target with
  | none => .inl (.zero (site.expect.getD .numeric), .missingTarget target)
  | some script =>
    let expected := site.expect.getD script.returnType
    if machine.depthLimit ≤ depth then .inl (.zero expected, .tooDeep target machine.depthLimit)
    else
      match script.arity.bind arguments with
      | .error fault => .inl (.zero expected, .rejected target script.name fault)
      | .ok bindings => .inr (script, script.bind bindings, expected)

theorem call_eq (site : CallSite) (target : String) (arguments : List Value) :
    machine.call site target arguments ⟨identity, frame :: callers, loops, timers⟩ =
      match machine.startOf site target arguments (callers.length + 1) with
      | .inl (value, fault) =>
        .ok (.degraded value fault, ⟨identity, frame :: callers, loops, timers⟩)
      | .inr (script, locals, expected) =>
        .ok (.transferred, ⟨identity,
          { script, locals, resume := some ⟨frame.ip + 1, site.result, expected⟩ } ::
            frame :: callers, loops, timers⟩) := by
  unfold call startOf
  cases machine.scripts.get? target with
  | none => rfl
  | some script =>
    by_cases h : machine.depthLimit ≤ callers.length + 1
    · simp only [Context.depth, List.length_cons, h, if_true]
    · simp only [Context.depth, List.length_cons, h, if_false]
      cases script.arity.bind arguments <;> rfl

theorem perform_call (site : CallSite) (now : Nat) (target : String) (arguments : List Value)
    (world : World) :
    machine.perform site now (.call target arguments)
        ⟨⟨identity, frame :: callers, loops, timers⟩, world⟩ =
      match machine.startOf site target arguments (callers.length + 1) with
      | .inl (value, fault) =>
        (.ok (.degraded value fault), ⟨⟨identity, frame :: callers, loops, timers⟩, world⟩)
      | .inr (script, locals, expected) =>
        (.ok .transferred, ⟨⟨identity,
          { script, locals, resume := some ⟨frame.ip + 1, site.result, expected⟩ } ::
            frame :: callers, loops, timers⟩, world⟩) := by
  rw [perform, call_eq]
  cases machine.startOf site target arguments (callers.length + 1) <;> rfl

/-- Where there is a frame, leaving a loop works, or leaves everything as it was. -/
theorem perform_breakLoop (site : CallSite) (now : Nat) (world : World) :
    machine.perform site now .breakLoop ⟨⟨identity, frame :: callers, loops, timers⟩, world⟩ =
      match ownLoop? (callers.length + 1) loops with
      | none =>
        (.error (.outsideLoop .breakOut), ⟨⟨identity, frame :: callers, loops, timers⟩, world⟩)
      | some loop =>
        (.ok .transferred, ⟨⟨identity, { frame with ip := loop.exit } :: callers, loops.tail,
          timers⟩, world⟩) := by
  simp only [perform, Context.breakOut, Context.popLoop, Context.currentLoop?_eq]
  cases ownLoop? (callers.length + 1) loops <;> rfl

theorem startOf_loaded {site : CallSite} {target : String} {arguments : List Value} {depth : Nat}
    {started : Script × Dictionary Value × DataType}
    (h : machine.startOf site target arguments depth = .inr started) :
    machine.scripts.get? target = some started.1 := by
  unfold startOf at h
  split at h
  · cases h
  · rename_i script hs
    dsimp only at h
    split at h
    · cases h
    · split at h <;> simp only [reduceCtorEq, Sum.inr.injEq] at h
      rw [hs, ← h]

theorem startOf_room {site : CallSite} {target : String} {arguments : List Value} {depth : Nat}
    {started : Script × Dictionary Value × DataType}
    (h : machine.startOf site target arguments depth = .inr started) :
    depth < machine.depthLimit := by
  unfold startOf at h
  split at h
  · cases h
  · dsimp only at h
    split at h
    · cases h
    · exact Nat.lt_of_not_le ‹_›

theorem timePassed_eq (now : Nat) :
    (⟨identity, frame :: callers, loops, timers⟩ : Context).timePassed now =
      let ticked := ((timers.get? frame.script.name).getD {}).tick now
      .ok (ticked.1, ⟨identity, frame :: callers, loops,
        timers.insert frame.script.name ticked.2⟩) := rfl

/-- A step that stores the result of a command and goes on. -/
def stored (slot : Option String) (value : Value) (degraded : Option Fault) (span : Span)
    (after : State) : Progress × State :=
  match store slot value after.context with
  | .ok context => (.running degraded, { after with context })
  | .error cause => (.failed ⟨cause, some span⟩, after)

theorem stored_eq (slot : Option String) (value : Value) (degraded : Option Fault) (span : Span)
    {world : World} :
    stored slot value degraded span ⟨⟨identity, frame :: callers, loops, timers⟩, world⟩ =
      (.running degraded, ⟨⟨identity,
        { frame with
          ip := frame.ip + 1
          locals := (slot.map (frame.locals.insert · value)).getD frame.locals } :: callers,
        loops, timers⟩, world⟩) := by
  rw [stored, store_eq]

/-- The step of a command, by what became of the command. -/
def settle (use : CommandUse) (span : Span) : Except Cause Dispatched × State → Progress × State
  | (.error cause, after) => (.failed ⟨cause, some span⟩, after)
  | (.ok (.value value), after) => stored use.result value none span after
  | (.ok (.degraded value fault), after) =>
    stored use.result value (some ⟨.call fault, some span⟩) span after
  | (.ok .transferred, after) => (.running none, after)
  | (.ok (.returned fault), after) =>
    (.running (fault.map fun fault => ⟨.call fault, some span⟩), after)
  | (.ok (.finished value), after) => (.finished value, after)

theorem stepAt_command (use : CommandUse) (span : Span) {world : World} :
    machine.stepAt ⟨.command use, span⟩ ⟨⟨identity, frame :: callers, loops, timers⟩, world⟩ =
      match use.arguments.mapM (machine.evaluate · frame.locals) with
      | .error cause =>
        (.failed ⟨cause, some span⟩, ⟨⟨identity, frame :: callers, loops, timers⟩, world⟩)
      | .ok arguments =>
        settle use span (machine.dispatch ⟨use.result, use.expect⟩ use.name arguments
          ⟨⟨identity, frame :: callers, loops, timers⟩, world⟩) := by
  simp only [stepAt, execute, command, evaluateAll_eq]
  cases use.arguments.mapM (machine.evaluate · frame.locals) with
  | error cause => rfl
  | ok arguments =>
    dsimp only
    generalize machine.dispatch ⟨use.result, use.expect⟩ use.name arguments
      ⟨⟨identity, frame :: callers, loops, timers⟩, world⟩ = dispatched
    obtain ⟨result, after⟩ := dispatched
    cases result with
    | error cause => rfl
    | ok dispatched =>
      cases dispatched with
      | value value =>
        simp only [settle, stored, State.attempt]
        cases store use.result value after.context <;> rfl
      | degraded value fault =>
        simp only [settle, stored, State.attempt]
        cases store use.result value after.context <;> rfl
      | transferred => rfl
      | returned fault => cases fault <;> rfl
      | finished value => rfl

theorem step_at {state : State} {instruction : Instruction}
    (hf : state.context.frames = frame :: callers)
    (hi : frame.script.instructions[frame.ip]? = some instruction) :
    machine.step state = machine.stepAt instruction state := by
  simp only [step, hf, hi]

theorem step_behind {state : State} (hf : state.context.frames = frame :: callers)
    (hi : frame.script.instructions[frame.ip]? = none) : machine.step state = stepOut state := by
  simp only [step, hf, hi]

end Machine

end ScriptEngine
