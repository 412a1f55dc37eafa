import ScriptEngine.Proofs.Machine.Calls
import ScriptEngine.Proofs.Machine.Embedding

/-!
# Scripts under other callers

A script behaves in the same way whoever calls it. `Base.steps_step` compares a step of a run of its own
with the same step on top of a base: they are seen to do the same and lead to the same state, up to the
step that ends the script, which returns its value to the base. `Machine.watch` follows a script to that
step, and `script_independent_of_callers` compares whole executions. Every call of a run starts on top of
a base (`Engine.Reachable.called`).

The caller can be seen in one place only: the last step of the script records a degraded result if the
caller expects another type of it.
-/

namespace ScriptEngine

/-- The outermost frame is one of a script of a name, and every loop belongs to a frame. -/
structure Context.IsRunOf (name : String) (context : Context) : Prop where
  outermost : (context.frames.map (·.script.name)).getLast? = some name
  owned : ∀ loop ∈ context.loops, 0 < loop.depth

theorem Move.outermost {machine : Machine} {frame : Frame} {callers frames' : List Frame}
    {loops loops' : List LoopContext} (h : Move machine frame callers loops frames' loops') :
    (frames'.map (·.script.name)).getLast? =
      ((frame :: callers).map (·.script.name)).getLast? := by
  cases h with
  | call => exact List.getLast?_cons_cons
  | finish value called =>
    subst called
    exact List.getLast?_cons_cons.symm
  | _ => rfl

theorem Machine.Goes.isRunOf {machine : Machine} {name : String} {before after : State}
    (h : machine.Goes before after) (hb : before.context.IsRunOf name) :
    after.context.IsRunOf name := by
  obtain ⟨frame, callers, hf⟩ := h.frames
  have hm := h.move hf
  refine ⟨hm.outermost.trans (hf ▸ hb.outermost), ?_⟩
  rcases hm.cases_on_depth with ⟨_, -, -, hc⟩ | ⟨_, _, _, -, hl, -⟩ | ⟨_, _, _, _, -, -, -, hl⟩
  · have hc : LoopsChange (callers.length + 1) (before.context.loops ++ []) after.context.loops := by
      rwa [List.append_nil]
    obtain ⟨own, hl, ho⟩ := hc.above (Nat.succ_pos _) (fun _ hm => absurd hm List.not_mem_nil) hb.owned
    rwa [hl, List.append_nil]
  · rw [hl]
    exact hb.owned
  · rw [hl]
    exact fun loop hm => hb.owned loop (List.mem_filter.mp hm).1

theorem Context.IsRunOf.frames {name : String} {context : Context} (h : context.IsRunOf name) :
    ∃ frame callers, context.frames = frame :: callers := by
  have ho := h.outermost
  cases hf : context.frames with
  | nil => simp [hf] at ho
  | cons frame callers => exact ⟨frame, callers, rfl⟩

theorem Context.IsRunOf.depth_pos {name : String} {context : Context} (h : context.IsRunOf name) :
    0 < context.depth := by
  obtain ⟨frame, callers, hf⟩ := h.frames
  simp [Context.depth, hf]

/-- Whether a call could not start because there were too many frames. -/
def Fault.isTooDeep (fault : Fault) : Bool :=
  match fault.cause with
  | .call (.tooDeep ..) => true
  | _ => false

namespace Base

variable {base : Base} {identity name : String} {frame : Frame} {callers : List Frame}
  {loops : List LoopContext} {timers : Dictionary Timer} {world : World} {machine : Machine}

/-! ## Steps -/

/-- The degraded result that is recorded when a script returns a value that its caller does not
admit. -/
def discarded (base : Base) (name : String) (value : Value) (span : Option Span) : Option Fault :=
  (Context.discardedType base.resume.expected value).map fun type =>
    ⟨.call (.discarded name type base.resume.expected), span⟩

/-- The state in which the caller goes on when a script has ended, given its value and the state in
which a run of its own would have ended. -/
def returned (base : Base) (value : Value) (after : State) : State :=
  ⟨⟨base.identity, base.caller.deliver base.resume value :: base.others, base.loops,
    after.context.timers⟩, after.world⟩

/-- The step of a script on its own and the same step on top of a base. If the script ends with the
step, its caller goes on. -/
inductive Steps (base : Base) (name : String) : Progress × State → Progress × State → Prop
  | running {degraded : Option Fault} {after : State} :
      Steps base name (.running degraded, after) (.running degraded, base.liftState after)
  | failed {fault : Fault} {after : State} :
      Steps base name (.failed fault, after) (.failed fault, base.liftState after)
  | finished {value : Value} {after : State} (span : Option Span) :
      Steps base name (.finished value, after)
        (.running (base.discarded name value span), base.returned value after)

/-- A step that did not meet the limit on the number of frames. -/
def InDepth (progress : Progress) : Prop :=
  ∀ fault, progress = .running (some fault) → fault.isTooDeep = false

/-- The step that ends a frame at a place. -/
def leaving (span : Option Span) : Except Cause Dispatched × State → Progress × State
  | (.error cause, after) => (.failed ⟨cause, span⟩, after)
  | (.ok (.finished value), after) => (.finished value, after)
  | (.ok (.returned fault), after) => (.running (fault.map fun fault => ⟨.call fault, span⟩), after)
  | (.ok _, after) => (.running none, after)

theorem steps_leave (span : Option Span)
    (h : (⟨identity, frame :: callers, loops, timers⟩ : Context).IsRunOf name) :
    Steps base name (leaving span (⟨⟨identity, frame :: callers, loops, timers⟩, world⟩ : State).leave)
      (leaving span
        (base.liftState ⟨⟨identity, frame :: callers, loops, timers⟩, world⟩).leave) := by
  cases callers with
  | nil =>
    have hn : frame.script.name = name := Option.some.inj h.outermost
    have ho : (base.lift ⟨identity, [frame], loops, timers⟩).leave =
        (.ok (.returned ((Context.discardedType base.resume.expected
          (frame.pending.getD .invalid)).map (.discarded frame.script.name · base.resume.expected))),
        ⟨base.identity, base.caller.deliver base.resume (frame.pending.getD .invalid) :: base.others,
          (base.stacked loops).filter (·.depth ≤ base.height), timers⟩) := Context.leave_callee rfl
    have hf := base.filter_stacked 0 loops
    have hl : loops.filter (·.depth ≤ 0) = [] :=
      List.filter_eq_nil_iff.mpr fun loop hm => by simpa using Nat.ne_of_gt (h.owned loop hm)
    rw [Nat.zero_add, hl] at hf
    rw [State.leave, State.leave, Context.leave_outermost, liftState, ho, hf, hn]
    simp only [leaving, Option.map_map]
    exact .finished span
  | cons next rest =>
    cases hr : frame.resume with
    | none =>
      have ho : (base.lift ⟨identity, frame :: next :: rest, loops, timers⟩).leave =
          (.error (.noResumePoint frame.script.name), ⟨base.identity, base.frames (next :: rest),
            (base.stacked loops).filter (·.depth ≤ (base.frames (next :: rest)).length), timers⟩) :=
        Context.leave_stranded hr
      rw [frames_length, filter_stacked] at ho
      rw [State.leave, State.leave, Context.leave_stranded hr, liftState, ho]
      exact .failed
    | some resume =>
      have ho : (base.lift ⟨identity, frame :: next :: rest, loops, timers⟩).leave =
          (.ok (.returned ((Context.discardedType resume.expected
            (frame.pending.getD .invalid)).map (.discarded frame.script.name · resume.expected))),
          ⟨base.identity, base.frames (next.deliver resume (frame.pending.getD .invalid) :: rest),
            (base.stacked loops).filter (·.depth ≤ (base.frames (next :: rest)).length), timers⟩) :=
        Context.leave_callee hr
      rw [frames_length, filter_stacked] at ho
      rw [State.leave, State.leave, Context.leave_callee hr, liftState, ho]
      exact .running

theorem steps_stored (slot : Option String) (value : Value) (degraded : Option Fault) (span : Span) :
    Steps base name
      (Machine.stored slot value degraded span ⟨⟨identity, frame :: callers, loops, timers⟩, world⟩)
      (Machine.stored slot value degraded span
        (base.liftState ⟨⟨identity, frame :: callers, loops, timers⟩, world⟩)) := by
  rw [Machine.stored, Machine.stored, liftState, store_lift, Machine.store_eq]
  exact .running

/-- What was tried on a context fails or succeeds in the same way on top of a base. -/
theorem steps_attempt {context : Context} {tried lifted : Except Cause Context}
    (h : lifted = tried.map base.lift) (use : CommandUse) (span : Span) :
    Steps base name
      (Machine.settle use span ((⟨context, world⟩ : State).attempt .transferred tried))
      (Machine.settle use span ((base.liftState ⟨context, world⟩).attempt .transferred lifted)) := by
  rw [h]
  cases tried with
  | error cause => exact .failed
  | ok after => exact .running

theorem settle_leave (use : CommandUse) (span : Span) (state : State) :
    Machine.settle use span state.leave = leaving (some span) state.leave := by
  rw [State.leave, Context.leave]
  cases state.context.finishFrame with
  | mk result after =>
    cases result with
    | error cause => rfl
    | ok exit => cases exit <;> rfl

theorem steps_call {use : CommandUse} {span : Span} {now : Nat} {target : String}
    {arguments : List Value}
    (hd : InDepth (Machine.settle use span (machine.perform ⟨use.result, use.expect⟩ now
      (.call target arguments)
      (base.liftState ⟨⟨identity, frame :: callers, loops, timers⟩, world⟩))).1) :
    Steps base name
      (Machine.settle use span (machine.perform ⟨use.result, use.expect⟩ now (.call target arguments)
        ⟨⟨identity, frame :: callers, loops, timers⟩, world⟩))
      (Machine.settle use span (machine.perform ⟨use.result, use.expect⟩ now (.call target arguments)
        (base.liftState ⟨⟨identity, frame :: callers, loops, timers⟩, world⟩))) := by
  have hl := @Machine.perform_call base.identity
    { frame with resume := base.resumeOf callers frame.resume } (base.frames callers)
    (base.stacked loops) timers machine ⟨use.result, use.expect⟩ now target arguments world
  rw [frames_length, Nat.add_right_comm] at hl
  have hl : machine.perform ⟨use.result, use.expect⟩ now (.call target arguments)
    (base.liftState ⟨⟨identity, frame :: callers, loops, timers⟩, world⟩) = _ := hl
  rw [hl] at hd ⊢
  rw [Machine.perform_call]
  rcases base.startOf_lift machine ⟨use.result, use.expect⟩ target arguments (callers.length + 1) with
    ⟨value, hs⟩ | hs
  · -- The degraded call would be seen in the step.
    rw [hs] at hd
    simp only [Machine.settle, Machine.stored, Machine.store_eq] at hd
    exact Bool.noConfusion (hd _ rfl)
  · rw [hs]
    cases machine.startOf ⟨use.result, use.expect⟩ target arguments (callers.length + 1) with
    | inl degraded => exact steps_stored ..
    | inr started => exact .running

theorem steps_perform {use : CommandUse} {span : Span} {now : Nat} (action : Action)
    (h : (⟨identity, frame :: callers, loops, timers⟩ : Context).IsRunOf name)
    (hd : InDepth (Machine.settle use span (machine.perform ⟨use.result, use.expect⟩ now action
      (base.liftState ⟨⟨identity, frame :: callers, loops, timers⟩, world⟩))).1) :
    Steps base name
      (Machine.settle use span (machine.perform ⟨use.result, use.expect⟩ now action
        ⟨⟨identity, frame :: callers, loops, timers⟩, world⟩))
      (Machine.settle use span (machine.perform ⟨use.result, use.expect⟩ now action
        (base.liftState ⟨⟨identity, frame :: callers, loops, timers⟩, world⟩))) := by
  cases action with
  | value value => exact steps_stored ..
  | print message => exact steps_stored ..
  | secondsPassed => exact steps_stored ..
  | breakLoop =>
    rw [base.perform_breakLoop_lift, Machine.perform_breakLoop]
    cases ownLoop? (callers.length + 1) loops with
    | none => exact .failed
    | some loop => exact .running
  | continueLoop => exact steps_attempt base.continueLoop_lift use span
  | finish value =>
    have hp : ∀ state : State, ∀ frame callers, state.context.frames = frame :: callers →
        machine.perform ⟨use.result, use.expect⟩ now (.finish value) state =
          (⟨{ state.context with frames := { frame with pending := some value } :: callers },
            state.world⟩ : State).leave := fun state frame callers hf => by
      simp only [Machine.perform, Context.setPending, Context.updateFrame, hf]
    rw [hp _ _ _ rfl, hp _ _ _ rfl, settle_leave, settle_leave]
    exact steps_leave (some span) ⟨h.outermost, h.owned⟩
  | call target arguments => exact steps_call hd

theorem steps_command (hc : machine.commands = .general) (use : CommandUse) (span : Span)
    (h : (⟨identity, frame :: callers, loops, timers⟩ : Context).IsRunOf name)
    (hd : InDepth (machine.stepAt ⟨.command use, span⟩
      (base.liftState ⟨⟨identity, frame :: callers, loops, timers⟩, world⟩)).1) :
    Steps base name
      (machine.stepAt ⟨.command use, span⟩ ⟨⟨identity, frame :: callers, loops, timers⟩, world⟩)
      (machine.stepAt ⟨.command use, span⟩
        (base.liftState ⟨⟨identity, frame :: callers, loops, timers⟩, world⟩)) := by
  have hl : machine.stepAt ⟨.command use, span⟩
      (base.liftState ⟨⟨identity, frame :: callers, loops, timers⟩, world⟩) = _ :=
    machine.stepAt_command use span
  rw [hl] at hd ⊢
  rw [Machine.stepAt_command]
  cases ha : use.arguments.mapM (machine.evaluate · frame.locals) with
  | error cause => exact .failed
  | ok arguments =>
    simp only [ha, Machine.dispatch_eq, hc] at hd ⊢
    rw [CommandTable.request_general base.identity identity] at hd ⊢
    cases hr : CommandTable.general.request identity use.name arguments world with
    | mk result world' =>
      cases result with
      | error cause => exact .failed
      | ok action =>
        simp only [hr] at hd ⊢
        exact steps_perform action h hd

/-- What an operation other than a command tries on the context. -/
theorem steps_execute {context : Context} {operation : Operation} {span : Span}
    {tried lifted : Except Cause Context} (hl : lifted = tried.map base.lift)
    (ht : machine.execute operation ⟨context, world⟩ =
      (⟨context, world⟩ : State).attempt .continues tried)
    (hb : machine.execute operation (base.liftState ⟨context, world⟩) =
      (base.liftState ⟨context, world⟩).attempt .continues lifted) :
    Steps base name (machine.stepAt ⟨operation, span⟩ ⟨context, world⟩)
      (machine.stepAt ⟨operation, span⟩ (base.liftState ⟨context, world⟩)) := by
  rw [Machine.stepAt, Machine.stepAt, ht, hb, hl]
  cases tried with
  | error cause => exact .failed
  | ok after => exact .running

/-- A script takes the same steps on top of a base as on its own. -/
theorem steps_step {state : State} (hc : machine.commands = .general)
    (h : state.context.IsRunOf name) (hd : InDepth (machine.step (base.liftState state)).1) :
    Steps base name (machine.step state) (machine.step (base.liftState state)) := by
  obtain ⟨frame, callers, hf⟩ := h.frames
  obtain ⟨⟨identity, frames, loops, timers⟩, world⟩ := state
  simp only at hf
  subst hf
  have hl : (base.liftState ⟨⟨identity, frame :: callers, loops, timers⟩, world⟩).context.frames =
      { frame with resume := base.resumeOf callers frame.resume } :: base.frames callers := rfl
  cases hi : frame.script.instructions[frame.ip]? with
  | none =>
    rw [Machine.step_behind machine rfl hi, Machine.step_behind machine hl hi]
    exact steps_leave none h
  | some instruction =>
    obtain ⟨operation, span⟩ := instruction
    rw [Machine.step_at machine hl hi] at hd
    rw [Machine.step_at machine rfl hi, Machine.step_at machine hl hi]
    cases operation with
    | assign target expression => exact steps_execute (base.assign_lift ..) rfl rfl
    | branch condition otherwise => exact steps_execute (base.branch_lift ..) rfl rfl
    | loopStart condition exit => exact steps_execute (base.loopStart_lift ..) rfl rfl
    | jump target => exact steps_execute (base.setIp_lift _) rfl rfl
    | loopEnd start => exact steps_execute (base.setIp_lift _) rfl rfl
    | command use => exact steps_command hc use span h hd

/-- The same is seen of them. -/
theorem observe_lift {state : State} (hc : machine.commands = .general)
    (h : state.context.IsRunOf name) :
    machine.observe (base.liftState state) = machine.observe state := by
  obtain ⟨frame, callers, hf⟩ := h.frames
  obtain ⟨⟨identity, frames, loops, timers⟩, world⟩ := state
  simp only at hf
  subst hf
  have ho : ({ frame with resume := base.resumeOf callers frame.resume } : Frame).operation? =
      frame.operation? := rfl
  simp only [Machine.observe, liftState, lift, Base.frames, ho]
  cases frame.operation? with
  | none => rfl
  | some operation =>
    cases operation with
    | command use =>
      simp only [Machine.operationEvents, Machine.commandEvents, hc,
        CommandTable.request_general base.identity identity]
    | _ => rfl

end Base

/-! ## Whole executions -/

/-- Takes steps until no more than `floor` frames are left or the run ends, at most a number of them.
Returns what was seen and the last step, if there is one. -/
def Machine.watch (machine : Machine) (floor : Nat) :
    Nat → State → Log → Log × Option (Progress × State)
  | 0, _, log => (log, none)
  | limit + 1, state, log =>
    match machine.step state with
    | (.running degraded, after) =>
      let log := log.add (machine.observe state) degraded
      if floor < after.context.depth then machine.watch floor limit after log
      else (log, some (.running degraded, after))
    | ending => (log.add (machine.observe state) none, some ending)

variable {machine : Machine} {floor limit : Nat} {state : State} {log : Log}

/-- What was seen once stays in the log. -/
theorem Machine.watch_degraded {fault : Fault} (h : fault ∈ log.degraded) :
    fault ∈ (machine.watch floor limit state log).1.degraded := by
  induction limit generalizing state log with
  | zero => exact h
  | succ limit ih =>
    have ha : ∀ events degraded, fault ∈ (log.add events degraded).degraded := fun _ _ =>
      List.mem_append_left _ h
    rw [watch]
    cases machine.step state with
    | mk progress after =>
      cases progress with
      | running degraded =>
        by_cases hd : floor < after.context.depth
        · simp only [hd, if_true]
          exact ih (ha _ _)
        · simp only [hd, if_false]
          exact ha _ _
      | finished value => exact ha _ _
      | failed fault => exact ha _ _

/-- The result of a run and what was seen of it. -/
inductive Machine.Results (limit : Nat) :
    Log × Option (Progress × State) → Except Fault Outcome × State → Prop
  | finished {value : Value} {steps : Nat} {log : Log} {after : State} :
      Results limit (log, some (.finished value, after)) (.ok ⟨value, steps, log.degraded⟩, after)
  | failed {fault : Fault} {log : Log} {after : State} :
      Results limit (log, some (.failed fault, after)) (.error fault, after)
  | cut {identity : String} {log : Log} {last : State} :
      Results limit (log, none) (.error ⟨.stepLimit identity limit, none⟩, last)

theorem Machine.watch_runWithin {name : String} {run : Run} (h : run.state.context.IsRunOf name)
    (hd : log.degraded = run.degraded.reverse) (remaining : Nat) :
    Results limit (machine.watch 0 remaining run.state log)
        (machine.runWithin limit remaining run) ∧
      (machine.watch 0 remaining run.state log).1.events =
        log.events ++ machine.trace remaining run.state := by
  induction remaining generalizing run log with
  | zero => exact ⟨.cut, (List.append_nil _).symm⟩
  | succ remaining ih =>
    simp only [watch, runWithin, advance, trace]
    cases hs : machine.step run.state with
    | mk progress after =>
      cases progress with
      | running degraded =>
        have ha : after.context.IsRunOf name := Goes.isRunOf ⟨degraded, hs⟩ h
        have hz : 0 < after.context.depth := ha.depth_pos
        have hd' : (log.add (machine.observe run.state) degraded).degraded =
            (degraded.toList ++ run.degraded).reverse := by
          cases degraded <;> simp [Log.add, hd]
        obtain ⟨hr, he⟩ :=
          @ih (log.add (machine.observe run.state) degraded)
            ⟨after, run.steps + 1, degraded.toList ++ run.degraded⟩ ha hd'
        simp only [hz, if_true]
        exact ⟨hr, he.trans (List.append_assoc ..)⟩
      | finished value =>
        simp only [Log.add, List.append_nil, and_true, Option.toList_none, hd]
        exact .finished
      | failed fault =>
        simp only [Log.add, List.append_nil, and_true]
        exact .failed

/-- Watching a script that is the outermost one means watching the whole run. -/
theorem Machine.watch_run {name : String} (h : state.context.IsRunOf name) (limit : Nat) :
    Results limit (machine.watch 0 limit state {}) (machine.run limit state) ∧
      (machine.watch 0 limit state {}).1.events = machine.trace limit state :=
  @watch_runWithin machine limit {} name ⟨state, 0, []⟩ h rfl limit

namespace Base

variable {base : Base} {name : String}

/-- How a script ends on its own and on top of a base, and the degraded result that only the latter
records. -/
inductive Ends (base : Base) (name : String) :
    Option (Progress × State) → Option (Progress × State) → Option Fault → Prop
  | cut : Ends base name none none none
  | failed {fault : Fault} {after : State} :
      Ends base name (some (.failed fault, after)) (some (.failed fault, base.liftState after)) none
  | finished {value : Value} {after : State} (span : Option Span) :
      Ends base name (some (.finished value, after))
        (some (.running (base.discarded name value span), base.returned value after))
        (base.discarded name value span)

/-- A step that is seen in a log without calls that were too deep was not too deep. -/
theorem inDepth_of_watch
    (hw : (machine.watch floor (limit + 1) state log).1.degraded.any (·.isTooDeep) = false) :
    InDepth (machine.step state).1 := by
  intro fault hp
  refine Bool.eq_false_iff.mpr fun ht => ?_
  refine Bool.eq_false_iff.mp hw (List.any_eq_true.mpr ⟨fault, ?_, ht⟩)
  rw [Machine.watch]
  generalize machine.step state = step at hp
  obtain ⟨progress, after⟩ := step
  simp only at hp
  subst hp
  have ha : fault ∈ (log.add (machine.observe state) (some fault)).degraded :=
    List.mem_append_right _ (List.mem_singleton.mpr rfl)
  by_cases hd : floor < after.context.depth
  · simp only [hd, if_true]
    exact Machine.watch_degraded ha
  · simp only [hd, if_false]
    exact ha

theorem watch_lift (hc : machine.commands = .general) (h : state.context.IsRunOf name)
    (hw : (machine.watch base.height limit (base.liftState state) log).1.degraded.any
      (·.isTooDeep) = false) :
    ∃ discarded,
      Ends base name (machine.watch 0 limit state log).2
        (machine.watch base.height limit (base.liftState state) log).2 discarded ∧
      (machine.watch base.height limit (base.liftState state) log).1 =
        (machine.watch 0 limit state log).1.add [] discarded := by
  induction limit generalizing state log with
  | zero => exact ⟨none, .cut, (Log.add_nil _).symm⟩
  | succ limit ih =>
    have hs := steps_step hc h (inDepth_of_watch hw)
    have hg : ∀ degraded after, machine.step state = (.running degraded, after) →
        after.context.IsRunOf name := fun degraded after hr => Machine.Goes.isRunOf ⟨degraded, hr⟩ h
    simp only [Machine.watch, observe_lift hc h] at hw ⊢
    generalize machine.step state = alone, machine.step (base.liftState state) = called at hs hg hw ⊢
    cases hs with
    | @running degraded after =>
      have ha := hg degraded after rfl
      have hz : 0 < after.context.depth := ha.depth_pos
      have hb : base.height < (base.liftState after).context.depth := by
        have : (base.liftState after).context.depth = after.context.depth + base.height :=
          base.frames_length _
        omega
      simp only [hz, hb, if_true] at hw ⊢
      exact ih ha hw
    | failed => exact ⟨none, .failed, (Log.add_nil _).symm⟩
    | @finished value after span =>
      have hb : ¬ base.height < (base.returned value after).context.depth := Nat.lt_irrefl _
      simp only [hb, if_false]
      exact ⟨_, .finished span, by simp [Log.add]⟩

end Base

/-- The state in which a script starts as the outermost one. -/
def State.outermost (script : Script) (locals : Dictionary Value) (timers : Dictionary Timer)
    (world : World) : State :=
  ⟨{ Context.start script locals with timers }, world⟩

/-- The state in which a script starts on top of a base. -/
def Base.called (base : Base) (script : Script) (locals : Dictionary Value)
    (timers : Dictionary Timer) (world : World) : State :=
  ⟨(⟨base.identity, base.caller :: base.others, base.loops, timers⟩ : Context).pushFrame script
    locals base.resume, world⟩

/-- Every call of a run starts on top of a base. -/
theorem Engine.Reachable.called {engine : Engine} {before after : State}
    (hr : engine.Reachable before) (hg : engine.machine.Goes before after)
    (hd : after.context.depth = before.context.depth + 1) :
    ∃ base : Base, ∃ script locals,
      after = base.called script locals after.context.timers after.world ∧
      base.caller :: base.others = before.context.frames ∧ base.loops = before.context.loops := by
  obtain ⟨frame, callers, hf⟩ := hg.frames
  have hm := hg.move hf
  have ho : ∀ loop ∈ before.context.loops, loop.depth ≤ (frame :: callers).length := by
    simpa only [Context.LoopsOwned, hf] using hr.owned
  obtain ⟨⟨identity, frames, loops, timers⟩, world⟩ := after
  simp only [Context.depth, hf] at hd hm
  cases hm with
  | @call use _ script locals expected =>
    exact ⟨⟨identity, ⟨frame.ip + 1, use.result, expected⟩, frame, callers, before.context.loops, ho⟩,
      script, locals, rfl, hf.symm, rfl⟩
  | finish value called =>
    subst called
    simp only [List.length_cons] at hd
    omega
  | _ => exact absurd hd (Nat.ne_of_lt (Nat.lt_succ_self _))

/-- A script behaves in the same way whoever calls it, with the general commands and as long as the
frames below it leave room for those above it. The same expressions are evaluated, the same commands
are dispatched, the same messages are written and the same timers are updated, in the same order and
with the same degraded results, and the script ends with the same value or fault, timers and
surroundings as in a run of its own, or not at all within the same number of steps. Then the frames and
loops below are as before, except that the value was delivered to the caller; one more degraded result
is recorded there if the caller does not admit the value. -/
theorem script_independent_of_callers (hc : machine.commands = .general) (base : Base)
    (script : Script) (locals : Dictionary Value) (timers : Dictionary Timer) (world : World)
    (limit : Nat)
    (hdepth : (machine.watch base.height limit (base.called script locals timers world)
      {}).1.degraded.any (·.isTooDeep) = false) :
    let alone := machine.watch 0 limit (.outermost script locals timers world) {}
    let called := machine.watch base.height limit (base.called script locals timers world) {}
    (∃ discarded, base.Ends script.name alone.2 called.2 discarded ∧
      called.1 = alone.1.add [] discarded) ∧
    Machine.Results limit alone (machine.run limit (.outermost script locals timers world)) ∧
    alone.1.events = machine.trace limit (.outermost script locals timers world) := by
  have hs : (State.outermost script locals timers world).context.IsRunOf script.name :=
    ⟨rfl, fun _ hm => absurd hm List.not_mem_nil⟩
  exact ⟨Base.watch_lift hc hs hdepth, Machine.watch_run hs limit⟩

/-- A machine with a script that calls one that does not exist. -/
def tellers : Machine where
  commands := .general
  scripts := .ofList [("helper", ⟨"helper", "helper.script.xml", [], .multi,
    [⟨.command ⟨"Call", ["nobody"], none, none⟩, .atLine 1⟩]⟩)]
  evaluate expression _ := .ok (.string expression)

/-- A script that writes a message, calls another one and returns a text. -/
def teller : Script :=
  ⟨"teller", "teller.script.xml", [], .multi,
    [⟨.command ⟨"PrintToConsole", ["hello"], none, none⟩, .atLine 1⟩,
      ⟨.command ⟨"Call", ["helper"], none, none⟩, .atLine 2⟩,
      ⟨.command ⟨"Return", ["text"], none, none⟩, .atLine 3⟩]⟩

/-- A caller inside a loop that expects a type. -/
def asker (expected : DataType) : Base where
  identity := "main"
  resume := ⟨2, some "answer", expected⟩
  caller := { script := ⟨"main", "main.script.xml", [], .multi, []⟩, ip := 1 }
  others := []
  loops := [⟨0, 3, 1⟩]
  owned := by decide

theorem teller_independent_of_asker :
    let alone := tellers.watch 0 10 (.outermost teller .empty .empty {}) {}
    let called := tellers.watch 1 10 ((asker .string).called teller .empty .empty {}) {}
    called.1.degraded = [⟨.call (.missingTarget "nobody"), some (.atLine 1)⟩] ∧
      called.1.events.length = 9 ∧
      ∃ discarded, (asker .string).Ends "teller" alone.2 called.2 discarded ∧
        called.1 = alone.1.add [] discarded := by
  refine ⟨by decide +kernel, by decide +kernel, ?_⟩
  exact (script_independent_of_callers rfl (asker .string) teller .empty .empty {} 10
    (by decide +kernel)).1

/-- The degraded results of a script do depend on its caller: one that expects another type of the
result has it recorded. -/
theorem degraded_results_depend_on_caller :
    ¬ ∀ (machine : Machine) (base : Base) (script : Script) (locals : Dictionary Value)
        (timers : Dictionary Timer) (world : World) (limit : Nat),
      let alone := machine.watch 0 limit (.outermost script locals timers world) {}
      let called := machine.watch base.height limit (base.called script locals timers world) {}
      machine.commands = .general → called.1.degraded.any (·.isTooDeep) = false →
        called.2.isSome → called.1.degraded = alone.1.degraded := by
  intro h
  have hs := h tellers (asker .numeric) teller .empty .empty {} 10 rfl (by decide +kernel)
    (by decide +kernel)
  exact absurd hs (by decide +kernel)

end ScriptEngine
