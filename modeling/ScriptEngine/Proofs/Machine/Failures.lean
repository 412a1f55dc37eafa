import ScriptEngine.Proofs.Command.General
import ScriptEngine.Proofs.Dictionary
import ScriptEngine.Proofs.Machine.Calls
import ScriptEngine.Proofs.Machine.StepLimit

/-!
# How a run can fail

`Failure` lists the causes with which a step can fail from a frame and its callers, and
`Machine.step_failed` says that there is nothing else. In the states of a run of an engine some of these
cannot arise: every frame but the outermost one knows where its caller goes on (`Resumable`), and every
frame executes a script that the engine has checked (`Script.UsesOnly`). So
`checking_rules_out_internal_faults`: with the general commands a run that has started fails for a reason
that lies in its script, or because it exceeds the limit on the number of steps.
-/

namespace ScriptEngine

/-- The causes with which a step can fail from a frame and its callers. -/
inductive Failure (machine : Machine) (frame : Frame) (callers : List Frame) : Cause → Prop
  /-- An expression cannot be evaluated. -/
  | evaluation {expression : String} {cause : Cause}
      (evaluates : machine.evaluate expression frame.locals = .error cause) :
      Failure machine frame callers cause
  | unknownCommand {use : CommandUse} (stands : frame.operation? = some (.command use))
      (missing : machine.commands.lookup use.name = none) :
      Failure machine frame callers (.unknownCommand use.name)
  /-- A command does not take its arguments, or its handler fails. -/
  | answer {use : CommandUse} {command : Command} {identity : String} {now : Nat}
      {arguments : List Value} {cause : Cause} (stands : frame.operation? = some (.command use))
      (found : machine.commands.lookup use.name = some command)
      (answers : command.answer identity now arguments = .error cause) :
      Failure machine frame callers cause
  | outsideLoop (request : LoopRequest) : Failure machine frame callers (.outsideLoop request)
  /-- A frame has ended and does not know where its caller goes on. -/
  | stranded (called : callers ≠ []) (resumes : frame.resume = none) :
      Failure machine frame callers (.noResumePoint frame.script.name)

section

variable {machine : Machine} {identity : String} {frame : Frame} {callers : List Frame}
  {loops : List LoopContext} {timers : Dictionary Timer} {world : World} {after : State}
  {fault : Fault} {cause : Cause}

theorem Machine.mapM_error {expressions : List String} {locals : Dictionary Value}
    (h : expressions.mapM (machine.evaluate · locals) = .error cause) :
    ∃ expression, machine.evaluate expression locals = .error cause := by
  induction expressions with
  | nil => cases h
  | cons expression rest ih =>
    rw [List.mapM_cons] at h
    cases he : machine.evaluate expression locals with
    | error other =>
      rw [he] at h
      cases h
      exact ⟨expression, he⟩
    | ok value =>
      rw [he] at h
      cases hr : rest.mapM (machine.evaluate · locals) with
      | error other =>
        refine ih (hr.trans ?_)
        simpa [hr, bind, Except.bind] using h
      | ok values => simp [hr, bind, Except.bind, pure, Except.pure] at h

theorem Machine.map_error {α : Type} {evaluated : Except Cause Value} {use : Value → α}
    (h : evaluated.map use = .error cause) : evaluated = .error cause := by
  cases evaluated with
  | error other => cases h; rfl
  | ok value => cases h

theorem Machine.loopStart_failed {condition : String} {exit : Nat}
    (h : machine.loopStart condition exit ⟨identity, frame :: callers, loops, timers⟩ =
      .error cause) : machine.evaluate condition frame.locals = .error cause := by
  cases hv : machine.evaluate condition frame.locals with
  | error other =>
    rw [loopStart_error machine hv] at h
    cases h
    rfl
  | ok value =>
    cases ht : value.isTruthy with
    | true =>
      cases hl : inOwnLoop (callers.length + 1) frame.ip loops with
      | true => simp [loopStart_repeat machine hv ht hl] at h
      | false => simp [loopStart_enter machine hv ht hl] at h
    | false =>
      cases hl : inOwnLoop (callers.length + 1) frame.ip loops with
      | true =>
        obtain ⟨loop, outer, rfl, hd, hr⟩ := inOwnLoop_iff.mp hl
        simp [loopStart_leave machine hv ht hd hr] at h
      | false => simp [loopStart_skip machine hv ht hl] at h

theorem Context.leave_failed
    (h : (⟨identity, frame :: callers, loops, timers⟩ : Context).leave.1 = .error cause) :
    callers ≠ [] ∧ frame.resume = none ∧ cause = .noResumePoint frame.script.name := by
  cases callers with
  | nil => simp [leave_outermost] at h
  | cons caller others =>
    cases hr : frame.resume with
    | some resume => simp [leave_callee hr] at h
    | none =>
      rw [leave_stranded hr, Except.error.injEq] at h
      exact ⟨List.cons_ne_nil _ _, rfl, h.symm⟩

/-- Doing what a command asks for fails outside of a loop, or at the end of a frame. -/
theorem Machine.perform_failed {site : CallSite} {now : Nat} {action : Action}
    (h : machine.perform site now action ⟨⟨identity, frame :: callers, loops, timers⟩, world⟩ =
      (.error cause, after)) : Failure machine frame callers cause := by
  cases action with
  | value value => simp [perform] at h
  | print message => simp [perform] at h
  | secondsPassed => simp [perform, timePassed_eq] at h
  | breakLoop =>
    rw [perform_breakLoop] at h
    cases ho : ownLoop? (callers.length + 1) loops with
    | none =>
      rw [ho] at h
      cases h
      exact .outsideLoop .breakOut
    | some loop => simp [ho] at h
  | continueLoop =>
    simp only [perform] at h
    cases ho : ownLoop? (callers.length + 1) loops with
    | none =>
      rw [Context.continueLoop_outside ho] at h
      cases h
      exact .outsideLoop .resume
    | some loop =>
      obtain ⟨outer, rfl, hd⟩ := ownLoop?_eq_some.mp ho
      rw [Context.continueLoop_own hd] at h
      cases h
  | finish value =>
    have hl : (⟨identity, { frame with pending := some value } :: callers, loops, timers⟩ :
        Context).leave.1 = .error cause := congrArg Prod.fst h
    obtain ⟨hc, hr, rfl⟩ := Context.leave_failed hl
    exact .stranded hc hr
  | call target arguments =>
    rw [perform_call] at h
    cases hs : machine.startOf site target arguments (callers.length + 1) <;> simp [hs] at h

/-- A result can always be stored while there is a frame. -/
theorem Machine.stored_running {slot : Option String} {value : Value} {degraded : Option Fault}
    {span : Span} {state : State} (hf : state.context.frames = frame :: callers) :
    ∃ stored, Machine.stored slot value degraded span state = (.running degraded, stored) := by
  obtain ⟨⟨identity, frames, loops, timers⟩, world⟩ := state
  simp only at hf
  subst hf
  exact ⟨_, stored_eq ..⟩

/-- The step of a command fails if its arguments cannot be evaluated, if it is unknown, if its answer
is a failure, or if what it asks for cannot be done. -/
theorem Machine.command_failed {use : CommandUse} {span : Span}
    (stands : frame.operation? = some (.command use))
    (h : machine.stepAt ⟨.command use, span⟩ ⟨⟨identity, frame :: callers, loops, timers⟩, world⟩ =
      (.failed fault, after)) : Failure machine frame callers fault.cause := by
  rw [stepAt_command] at h
  cases ha : use.arguments.mapM (machine.evaluate · frame.locals) with
  | error cause =>
    obtain ⟨expression, he⟩ := mapM_error ha
    simp only [ha, Prod.mk.injEq, Progress.failed.injEq] at h
    rw [← h.1]
    exact .evaluation he
  | ok arguments =>
    simp only [ha, dispatch_eq] at h
    cases hl : machine.commands.lookup use.name with
    | none =>
      simp only [CommandTable.request, hl, settle, Prod.mk.injEq, Progress.failed.injEq] at h
      rw [← h.1]
      exact .unknownCommand stands hl
    | some command =>
      have hq := CommandTable.request_eq hl identity arguments world
      generalize machine.commands.request identity use.name arguments world = request at h hq
      obtain ⟨result, world'⟩ := request
      cases result with
      | error cause =>
        simp only [settle, Prod.mk.injEq, Progress.failed.injEq] at h
        rw [← h.1]
        exact .answer stands hl hq.symm
      | ok action =>
        simp only at h
        generalize hp : machine.perform ⟨use.result, use.expect⟩ world.readClock.1 action
          ⟨⟨identity, frame :: callers, loops, timers⟩, world'⟩ = performed at h
        obtain ⟨result, performed⟩ := performed
        cases result with
        | error cause =>
          simp only [settle, Prod.mk.injEq, Progress.failed.injEq] at h
          rw [← h.1]
          exact perform_failed hp
        | ok dispatched =>
          have hm := perform_move stands hp
          cases dispatched with
          | value value =>
            obtain ⟨stored, hs⟩ := stored_running hm.1
            rw [settle, hs] at h
            cases h
          | degraded value fault =>
            obtain ⟨stored, hs⟩ := stored_running hm.1
            rw [settle, hs] at h
            cases h
          | transferred => cases h
          | returned fault => cases h
          | finished value => cases h

/-- What is tried on a context in a step that fails has failed. -/
theorem Machine.attempt_failed {operation : Operation} {span : Span} {state : State}
    {tried : Except Cause Context}
    (he : machine.execute operation state = state.attempt .continues tried)
    (h : machine.stepAt ⟨operation, span⟩ state = (.failed fault, after)) :
    tried = .error fault.cause := by
  rw [stepAt, he] at h
  cases tried with
  | ok context => cases h
  | error cause => cases h; rfl

/-- A step fails for one of the causes. -/
theorem Machine.step_failed {before : State} (h : machine.step before = (.failed fault, after))
    (hf : before.context.frames = frame :: callers) : Failure machine frame callers fault.cause := by
  obtain ⟨⟨identity, frames, loops, timers⟩, world⟩ := before
  simp only at hf
  subst hf
  cases hi : frame.script.instructions[frame.ip]? with
  | none =>
    rw [step_behind machine rfl hi, stepOut, State.leave] at h
    generalize hl : (⟨identity, frame :: callers, loops, timers⟩ : Context).leave = left at h
    obtain ⟨result, context⟩ := left
    cases result with
    | ok dispatched => cases dispatched <;> cases h
    | error cause =>
      cases h
      obtain ⟨hc, hr, rfl⟩ := Context.leave_failed (congrArg Prod.fst hl)
      exact .stranded hc hr
  | some instruction =>
    obtain ⟨operation, span⟩ := instruction
    have stands : frame.operation? = some operation := by simp [Frame.operation?, hi]
    rw [step_at machine rfl hi] at h
    cases operation with
    | command use => exact command_failed stands h
    | assign target expression =>
      have ht := attempt_failed rfl h
      rw [assign_eq] at ht
      exact .evaluation (map_error ht)
    | branch condition otherwise =>
      have ht := attempt_failed rfl h
      rw [branch_eq] at ht
      exact .evaluation (map_error ht)
    | loopStart condition exit => exact .evaluation (loopStart_failed (attempt_failed rfl h))
    | jump target => cases h
    | loopEnd start => cases h

end

/-! ## What holds in every state of a run -/

/-- There is an outermost frame, and every other frame knows where its caller goes on. -/
def Resumable : List Frame → Prop
  | [] => False
  | [_] => True
  | frame :: caller :: others => frame.resume.isSome ∧ Resumable (caller :: others)

/-- A frame may be replaced by one that goes back to the same place. -/
theorem Resumable.replace {frame frame' : Frame} {callers : List Frame}
    (h : Resumable (frame :: callers)) (hr : frame'.resume = frame.resume) :
    Resumable (frame' :: callers) := by
  cases callers with
  | nil => trivial
  | cons caller others => exact ⟨hr ▸ h.1, h.2⟩

theorem Move.resumable {machine : Machine} {frame : Frame} {callers frames' : List Frame}
    {loops loops' : List LoopContext} (h : Move machine frame callers loops frames' loops')
    (hr : Resumable (frame :: callers)) : Resumable frames' := by
  rcases h.cases_on_depth with ⟨frame', rfl, hs, -⟩ | ⟨callee, use, expected, rfl, -, -, hs⟩ |
      ⟨caller, others, resume, value, rfl, -, rfl, -⟩
  · exact hr.replace hs
  · exact ⟨by rw [hs]; rfl, hr⟩
  · exact hr.2.replace rfl

theorem Engine.Reachable.resumable {engine : Engine} {state : State} (h : engine.Reachable state) :
    Resumable state.context.frames := by
  refine h.keeps (P := fun state => Resumable state.context.frames)
    (fun _ _ _ _ _ _ => trivial) fun before after hb hg => ?_
  obtain ⟨frame, callers, hf⟩ := hg.frames
  exact (hg.move hf).resumable (hf ▸ hb)

/-- All commands that a script uses are in a table. -/
def Script.UsesOnly (script : Script) (commands : CommandTable) : Prop :=
  ∀ use ∈ script.commandUses, commands.contains use.1

theorem Script.usesOnly_iff {script : Script} {commands : CommandTable} :
    Engine.unknownCommand? commands script = none ↔ script.UsesOnly commands := by
  simp [Engine.unknownCommand?, UsesOnly, List.find?_eq_none]

theorem Frame.lookup_of_usesOnly {frame : Frame} {commands : CommandTable} {use : CommandUse}
    (stands : frame.operation? = some (.command use)) (h : frame.script.UsesOnly commands) :
    commands.lookup use.name ≠ none := by
  obtain ⟨⟨operation, span⟩, hi, ho⟩ := Option.map_eq_some_iff.mp stands
  simp only at ho
  subst ho
  have hm : (use.name, span) ∈ frame.script.commandUses :=
    List.mem_filterMap.mpr ⟨_, List.mem_of_getElem? hi, rfl⟩
  intro hn
  have hc := h _ hm
  rw [CommandTable.contains, hn] at hc
  cases hc

/-- An engine holds only scripts all of whose commands have been found. -/
theorem Engine.build_checked {scripts : Dictionary Script} {options : EngineOptions} {engine : Engine}
    (h : Engine.build scripts options = .ok engine) :
    ∀ target script, engine.machine.scripts.get? target = some script →
      script.UsesOnly options.commands := by
  obtain ⟨hu, rfl⟩ := build_ok h
  intro target script hs
  exact Script.usesOnly_iff.mp
    (List.findSome?_eq_none_iff.mp hu script (Dictionary.mem_values_of_get? hs))

theorem General.Answers.kind {command : Command} {arguments : List Value} {cause : Cause}
    (h : General.Answers command arguments (.error cause)) :
    cause.kind ∈ [.arityMismatch, .typeMismatch, .formatError] := by
  generalize hr : (Except.error cause : Except Cause Action) = result at h
  cases h with
  | @mismatch _ _ fault =>
    cases hr
    cases fault <;> simp [Cause.kind, MatchFault.kind]
  | severalResults =>
    cases hr
    simp [Cause.kind]
  | format arguments text =>
    cases text with
    | ok text => cases hr
    | error fault =>
      cases hr
      simp [Cause.kind]
  | _ => cases hr

/-- The kinds of faults of a step, where all commands are known, only the outermost frame goes nowhere
when it ends, and expressions that cannot be evaluated are reported as such. -/
theorem Failure.kind {machine : Machine} {frame : Frame} {callers : List Frame} {cause : Cause}
    (h : Failure machine frame callers cause) (hgeneral : machine.commands = .general)
    (hevaluate : ∀ expression locals cause, machine.evaluate expression locals = .error cause →
      cause.kind = .evaluation)
    (huses : frame.script.UsesOnly machine.commands) (hr : Resumable (frame :: callers)) :
    cause.kind ∈ [.evaluation, .contextError, .arityMismatch, .typeMismatch, .formatError] := by
  cases h with
  | evaluation he =>
    rw [hevaluate _ _ _ he]
    simp
  | unknownCommand stands missing => exact absurd missing (Frame.lookup_of_usesOnly stands huses)
  | @answer use command identity now arguments _ stands found ha =>
    rw [hgeneral] at found
    have hk : General.Answers command arguments (.error cause) :=
      ha ▸ General.answers (CommandTable.mem_general found)
    exact List.mem_cons_of_mem _ (List.mem_cons_of_mem _ hk.kind)
  | outsideLoop request => simp [Cause.kind]
  | stranded called resumes =>
    cases callers with
    | nil => exact absurd rfl called
    | cons caller others =>
      have hs := hr.1
      rw [resumes] at hs
      cases hs

/-- Expressions that cannot be evaluated are reported as such. -/
theorem evaluate_error_kind {text : String} {locals : Dictionary Value} {cause : Cause}
    (h : evaluate text locals = .error cause) : cause.kind = .evaluation := by
  unfold evaluate at h
  cases hr : Expression.result locals text with
  | ok value => rw [hr] at h; cases h
  | error detail => rw [hr] at h; cases h; rfl

/-! ## Whole runs -/

theorem Machine.Takes.reaches {machine : Machine} {steps : Nat} {first last : State × Log}
    (h : machine.Takes steps first last) : machine.Reaches first.1 last.1 := by
  induction h with
  | stay => exact .refl
  | step goes _ ih => exact .head ⟨_, goes⟩ ih

/-- A run that fails exceeds the limit on the number of steps or fails in a step. -/
theorem Engine.run_failed {engine : Engine} {name : String} {arguments : List Value}
    {context : Context} (hp : engine.prepare name arguments = .ok context)
    {timers : Dictionary Timer} {world : World} {limit : Nat} {fault : Fault}
    (h : (engine.machine.run limit ⟨context.withTimers timers, world⟩).1 = .error fault) :
    fault = ⟨.stepLimit context.identity limit, none⟩ ∨
      ∃ state after, engine.Reachable state ∧ engine.machine.step state = (.failed fault, after) := by
  have hends := engine.machine.runEnds limit ⟨context.withTimers timers, world⟩
  generalize engine.machine.run limit ⟨context.withTimers timers, world⟩ = result at h hends
  cases hends with
  | finished => cases h
  | @failed steps last _ final taken ends =>
    cases h
    exact .inr ⟨last.1, final, ⟨name, arguments, context, timers, world, hp, taken.reaches⟩, ends⟩
  | cut taken =>
    cases h
    rw [taken.identity]
    exact .inl rfl

/-- The kinds of faults of the steps of a run, where scripts use only general commands. -/
theorem Engine.Reachable.failed_kind {engine : Engine} {state after : State} {fault : Fault}
    (h : engine.Reachable state) (hs : engine.machine.step state = (.failed fault, after))
    (hgeneral : engine.machine.commands = .general)
    (hevaluate : ∀ expression locals cause,
      engine.machine.evaluate expression locals = .error cause → cause.kind = .evaluation)
    (hchecked : ∀ target script, engine.machine.scripts.get? target = some script →
      script.UsesOnly engine.machine.commands) :
    fault.kind ∈ [.evaluation, .contextError, .arityMismatch, .typeMismatch, .formatError] := by
  have hr := h.resumable
  have hu := h.forall_frame (P := fun frame => frame.script.UsesOnly engine.machine.commands)
    (fun target script _ _ hs => hchecked target script hs) fun _ _ _ hp => hp
  cases hf : state.context.frames with
  | nil =>
    rw [hf] at hr
    exact hr.elim
  | cons frame callers =>
    rw [hf] at hr hu
    have huses := hu frame (List.mem_cons_self ..)
    exact (Machine.step_failed hs hf).kind hgeneral hevaluate huses hr

/-- Checking the commands when an engine is built rules out that its runs fail internally. With the
general commands, any scripts, and an evaluator that reports as such what it cannot evaluate: a run or
background run that has started never fails with an unknown command, a clash or a wrong declaration of
commands, a failed call or a script that cannot be read. It fails with a runtime fault only because it
exceeds the limit on the number of steps; in particular there is always a frame, and a caller to go back
to. -/
theorem checking_rules_out_internal_faults {scripts : Dictionary Script} {options : EngineOptions}
    {engine : Engine} (hbuilt : Engine.build scripts options = .ok engine)
    (hgeneral : options.commands = .general)
    (hevaluate : ∀ expression locals cause, options.evaluate expression locals = .error cause →
      cause.kind = .evaluation)
    {name : String} {arguments : List Value} {context : Context}
    (hprepared : engine.prepare name arguments = .ok context) (timers : Dictionary Timer)
    (world : World) {fault : Fault}
    (hfault : (engine.run name arguments world).1 = .error fault ∨
      ({ engine with timers }.runBackground name arguments world).1 = .error fault) :
    fault.kind ∉ [.unknownCommand, .duplicateCommand, .invalidSignature, .callFailure, .parse] ∧
      (fault.kind = .runtime → fault = ⟨.stepLimit context.identity engine.stepLimit, none⟩) ∧
      fault.cause ≠ .noFrame ∧ ∀ script, fault.cause ≠ .noResumePoint script := by
  have hchecked := Engine.build_checked hbuilt
  obtain ⟨-, hengine⟩ := Engine.build_ok hbuilt
  have hrun : ∃ timers, (engine.machine.run engine.stepLimit
      ⟨context.withTimers timers, world⟩).1 = .error fault := by
    rcases hfault with h | h
    · refine ⟨.empty, ?_⟩
      simp only [Engine.run, hprepared] at h
      exact h
    · refine ⟨timers, ?_⟩
      have hp : { engine with timers }.prepare name arguments = .ok context := hprepared
      simpa only [Engine.runBackground, hp] using h
  obtain ⟨timers, hrun⟩ := hrun
  rcases Engine.run_failed hprepared hrun with rfl | ⟨state, after, hr, hs⟩
  · exact ⟨by simp [Fault.kind, Cause.kind], fun _ => rfl, by simp, by simp⟩
  · have hcommands : engine.machine.commands = options.commands := by rw [hengine]
    have hevaluates : engine.machine.evaluate = options.evaluate := by rw [hengine]
    have hkind := hr.failed_kind hs (hcommands.trans hgeneral) (hevaluates ▸ hevaluate)
      (hcommands ▸ hchecked)
    have hinternal : ∀ kind, kind ∉ [.evaluation, .contextError, .arityMismatch, .typeMismatch,
        .formatError] → fault.kind ≠ kind := by
      rintro _ hn rfl
      exact hn hkind
    refine ⟨?_, fun hruntime => ?_, fun hc => ?_, fun script hc => ?_⟩
    · simp only [List.mem_cons, List.not_mem_nil, or_false, not_or]
      refine ⟨?_, ?_, ?_, ?_, ?_⟩ <;> exact hinternal _ (by simp)
    · exact absurd hruntime (hinternal _ (by simp))
    · exact hinternal .runtime (by simp) (by rw [Fault.kind, hc]; rfl)
    · exact hinternal .runtime (by simp) (by rw [Fault.kind, hc]; rfl)

/-- A script that asks for the time and then leaves a loop that is not there. -/
def strays : Dictionary Script := .ofList
  [("stray", ⟨"stray", "stray.script.xml", [], .multi,
    [⟨.command ⟨"getsecondspassed", [], some "x", none⟩, .atLine 1⟩,
      ⟨.command ⟨"break", [], none, none⟩, .atLine 2⟩]⟩)]

theorem strays_fail_outside_loop :
    ∃ engine fault, Engine.build strays {} = .ok engine ∧
      (engine.run "stray" [] {}).1 = .error fault ∧ fault.kind = .contextError ∧
      fault.kind ∉ [.unknownCommand, .duplicateCommand, .invalidSignature, .callFailure, .parse] ∧
      (fault.kind = .runtime → fault = ⟨.stepLimit "stray" engine.stepLimit, none⟩) := by
  cases hb : Engine.build strays {} with
  | error fault => cases hb
  | ok engine =>
    have hp : ∃ context, engine.prepare "stray" [] = .ok context ∧ context.identity = "stray" := by
      cases hb
      exact ⟨_, rfl, rfl⟩
    have hf : (engine.run "stray" [] {}).1 = .error ⟨.outsideLoop .breakOut, some (.atLine 2)⟩ := by
      cases hb
      rfl
    obtain ⟨context, hp, hi⟩ := hp
    obtain ⟨hkinds, hruntime, -⟩ := checking_rules_out_internal_faults hb rfl
      (fun _ _ _ h => evaluate_error_kind h) hp .empty {} (.inl hf)
    exact ⟨engine, _, rfl, hf, rfl, hkinds, hi ▸ hruntime⟩

end ScriptEngine
