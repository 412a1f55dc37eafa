import ScriptEngine.Proofs.Command.General
import ScriptEngine.Proofs.Machine.Calls

/-!
# Results of calls

The result of a call has the type that the call promises, whether the call starts or not, and however
the called script ends. There are two places where this is decided:

* `Machine.step_call`: the step of a call puts the zero value in place of the result if the call cannot
  start (`Machine.startOf_degraded`), and else remembers the promised type (`Machine.startOf_started`);
* `Machine.step_returns`: the step that ends the called script hands over its value, or the zero value
  in its place, possibly many steps and calls later.

`call_result_has_promised_type` says that they agree, on the value as well as on what is recorded.
-/

namespace ScriptEngine

/-- Whether a value is of a promised type. Any value but nothing is where the type is left open. -/
def Value.Fits (value : Value) (promised : DataType) : Prop :=
  if promised = .multi then value ≠ .invalid else value.dataType = promised

theorem Value.fits_iff_admits {value : Value} {promised : DataType} :
    value.Fits promised ↔ promised.admits value = true := by
  cases value <;> cases promised <;>
    simp [Fits, DataType.admits, DataType.accepts, dataType, isInvalid]

theorem Value.zero_fits (promised : DataType) : (Value.zero promised).Fits promised := by
  cases promised <;> simp [Fits, zero, dataType]

theorem Value.coerce_fits (value : Value) (promised : DataType) :
    (value.coerce promised).Fits promised := by
  unfold coerce
  split
  · exact fits_iff_admits.mpr ‹_›
  · exact zero_fits promised

theorem Value.coerce_of_fits {value : Value} {promised : DataType} (h : value.Fits promised) :
    value.coerce promised = value :=
  if_pos (fits_iff_admits.mp h)

theorem Value.coerce_of_not_fits {value : Value} {promised : DataType} (h : ¬ value.Fits promised) :
    value.coerce promised = .zero promised :=
  if_neg fun ha => h (fits_iff_admits.mpr ha)

/-- A value is reported as discarded if it is not of the promised type, unless it is nothing. -/
theorem Context.discardedType_isSome {promised : DataType} {value : Value} :
    (discardedType promised value).isSome ↔ value ≠ .invalid ∧ ¬ value.Fits promised := by
  have hi : value.isInvalid = true ↔ value = .invalid := by cases value <;> simp [Value.isInvalid]
  rw [Value.fits_iff_admits, ne_eq, ← hi, discardedType]
  cases promised.admits value <;> cases value.isInvalid <;> simp

/-! ## The start of a call -/

namespace Machine

variable (machine : Machine)

/-- The type that a call promises: the one that is asked for, or else the one that the called script
declares, or else, if there is no such script, a number. -/
def promisedType (asked : Option DataType) (target : String) : DataType :=
  asked.getD (((machine.scripts.get? target).map (·.returnType)).getD .numeric)

/-- Whether a call can start above a number of frames: the script exists, there is room for one more
frame, and the script takes the arguments. -/
def CanStart (target : String) (arguments : List Value) (depth : Nat) : Prop :=
  ∃ script bindings, machine.scripts.get? target = some script ∧ depth < machine.depthLimit ∧
    script.arity.bind arguments = .ok bindings

variable {machine} {site : CallSite} {target : String} {arguments : List Value} {depth : Nat}

theorem startOf_degraded {value : Value} {fault : CallFault}
    (h : machine.startOf site target arguments depth = .inl (value, fault)) :
    value = .zero (machine.promisedType site.expect target) ∧
      ¬ machine.CanStart target arguments depth := by
  unfold startOf at h
  cases hs : machine.scripts.get? target with
  | none =>
    simp only [hs, Sum.inl.injEq, Prod.mk.injEq] at h
    refine ⟨by rw [← h.1, promisedType, hs]; rfl, ?_⟩
    rintro ⟨script, bindings, hs', -⟩
    rw [hs] at hs'
    cases hs'
  | some script =>
    have hpromised : machine.promisedType site.expect target = site.expect.getD script.returnType := by
      rw [promisedType, hs]
      rfl
    by_cases hd : machine.depthLimit ≤ depth
    · simp only [hs, hd, if_true, Sum.inl.injEq, Prod.mk.injEq] at h
      refine ⟨by rw [← h.1, hpromised], ?_⟩
      rintro ⟨-, -, -, hd', -⟩
      omega
    · cases hb : script.arity.bind arguments with
      | ok bindings => simp [hs, hd, hb] at h
      | error mismatch =>
        simp only [hs, hd, hb, if_false, Sum.inl.injEq, Prod.mk.injEq] at h
        refine ⟨by rw [← h.1, hpromised], ?_⟩
        rintro ⟨script', bindings, hs', -, hb'⟩
        rw [hs, Option.some.injEq] at hs'
        rw [← hs', hb] at hb'
        cases hb'

theorem startOf_started {script : Script} {locals : Dictionary Value} {expected : DataType}
    (h : machine.startOf site target arguments depth = .inr (script, locals, expected)) :
    expected = machine.promisedType site.expect target ∧
      machine.CanStart target arguments depth := by
  have hs := startOf_loaded _ h
  simp only [startOf, hs] at h
  by_cases hd : machine.depthLimit ≤ depth
  · simp [hd] at h
  · cases hb : script.arity.bind arguments with
    | error mismatch => simp [hd, hb] at h
    | ok bindings =>
      simp only [hd, hb, if_false, Sum.inr.injEq, Prod.mk.injEq] at h
      refine ⟨by rw [← h.2.2, promisedType, hs]; rfl, script, bindings, hs, by omega, hb⟩

end Machine

section

variable {machine : Machine} {identity : String} {frame caller : Frame} {callers : List Frame}
  {loops : List LoopContext} {timers : Dictionary Timer} {world : World} {use : CommandUse}
  {span : Span} {record : Option Fault} {after : State}

/-- The step of a call. -/
theorem Machine.step_call {target : String} {arguments : List Value}
    (hgeneral : machine.commands = .general)
    (hi : caller.script.instructions[caller.ip]? = some ⟨.command use, span⟩)
    (hcall : machine.commands.lookup use.name = some General.callCommand)
    (ha : use.arguments.mapM (machine.evaluate · caller.locals) = .ok (.string target :: arguments)) :
    machine.step ⟨⟨identity, caller :: callers, loops, timers⟩, world⟩ =
      match machine.startOf ⟨use.result, use.expect⟩ target arguments (callers.length + 1) with
      | .inl (value, fault) =>
        (.running (some ⟨.call fault, some span⟩), ⟨⟨identity,
          { caller with
            ip := caller.ip + 1
            locals := (use.result.map (caller.locals.insert · value)).getD caller.locals } :: callers,
          loops, timers⟩, world.readClock.2⟩)
      | .inr (script, locals, expected) =>
        (.running none, ⟨⟨identity,
          { script, locals, resume := some ⟨caller.ip + 1, use.result, expected⟩ } ::
            caller :: callers, loops, timers⟩, world.readClock.2⟩) := by
  rw [hgeneral] at hcall
  rw [step_at machine rfl hi, stepAt_command, ha]
  simp only [dispatch_eq, hgeneral, CommandTable.request_call hcall, perform_call]
  cases machine.startOf ⟨use.result, use.expect⟩ target arguments (callers.length + 1) with
  | inl degraded => exact stored_eq ..
  | inr started => rfl

/-- The step of a general command after which the run goes on: the arguments have been evaluated, the
command has been found and has answered, and what it asks for has been done. -/
theorem Machine.command_running (hgeneral : machine.commands = .general)
    (h : machine.stepAt ⟨.command use, span⟩ ⟨⟨identity, frame :: callers, loops, timers⟩, world⟩ =
      (.running record, after)) :
    ∃ arguments command action world',
      use.arguments.mapM (machine.evaluate · frame.locals) = .ok arguments ∧
      machine.commands.lookup use.name = some command ∧
      General.Answers command arguments (.ok action) ∧
      settle use span (machine.perform ⟨use.result, use.expect⟩ world.readClock.1 action
        ⟨⟨identity, frame :: callers, loops, timers⟩, world'⟩) = (.running record, after) := by
  rw [stepAt_command] at h
  cases ha : use.arguments.mapM (machine.evaluate · frame.locals) with
  | error cause => simp [ha] at h
  | ok arguments =>
    simp only [ha, dispatch_eq, hgeneral] at h ⊢
    cases hl : CommandTable.general.lookup use.name with
    | none => simp [CommandTable.request, hl, settle] at h
    | some command =>
      have hanswers := CommandTable.answers_general hl identity arguments world
      generalize CommandTable.general.request identity use.name arguments world = request
        at h hanswers
      obtain ⟨result, world'⟩ := request
      cases result with
      | error cause => simp [settle] at h
      | ok action => exact ⟨arguments, command, action, world', rfl, rfl, hanswers, h⟩

/-- A call after whose step the run goes on names its target. -/
theorem Machine.target_of_running (hgeneral : machine.commands = .general)
    (hi : caller.script.instructions[caller.ip]? = some ⟨.command use, span⟩)
    (hcall : machine.commands.lookup use.name = some General.callCommand)
    (hs : machine.step ⟨⟨identity, caller :: callers, loops, timers⟩, world⟩ =
      (.running record, after)) :
    ∃ target arguments, use.arguments.mapM (machine.evaluate · caller.locals) =
      .ok (.string target :: arguments) := by
  rw [step_at machine rfl hi] at hs
  obtain ⟨values, command, action, -, ha, hl, hanswers, -⟩ := command_running hgeneral hs
  rw [hcall, Option.some.injEq] at hl
  subst hl
  obtain ⟨target, arguments, rfl⟩ := hanswers.of_callCommand
  exact ⟨target, arguments, ha⟩

/-! ## The end of a called script -/

/-- The innermost frame ends with the next step and returns a value: it returns the argument of a
command, or nothing if there is none or if it stands behind its last instruction. -/
inductive Machine.Returns (machine : Machine) (state : State) : Value → Prop
  | command {frame : Frame} {callers : List Frame} {use : CommandUse} {arguments : List Value}
      (frames : state.context.frames = frame :: callers)
      (stands : frame.operation? = some (.command use))
      (found : machine.commands.lookup use.name = some General.returnCommand)
      (evaluates : use.arguments.mapM (machine.evaluate · frame.locals) = .ok arguments)
      (one : arguments.length ≤ 1) :
      Returns machine state (arguments.headD .invalid)
  | behind {frame : Frame} {callers : List Frame}
      (frames : state.context.frames = frame :: callers) (stands : frame.operation? = none) :
      Returns machine state .invalid

/-- What a command asks for other than the end of a frame ends none. -/
theorem Machine.depth_of_perform {site : CallSite} {now : Nat} {action : Action}
    (hn : ∀ value, action ≠ .finish value)
    (h : settle use span (machine.perform site now action
      ⟨⟨identity, frame :: callers, loops, timers⟩, world⟩) = (.running record, after)) :
    callers.length + 1 ≤ after.context.depth := by
  cases action with
  | value value => cases (stored_eq ..).symm.trans h; exact Nat.le_refl _
  | print message => cases (stored_eq ..).symm.trans h; exact Nat.le_refl _
  | secondsPassed => cases (stored_eq ..).symm.trans h; exact Nat.le_refl _
  | breakLoop =>
    rw [perform_breakLoop] at h
    cases ho : ownLoop? (callers.length + 1) loops with
    | none => simp [ho, settle] at h
    | some loop =>
      rw [ho] at h
      cases h
      exact Nat.le_refl _
  | continueLoop =>
    rw [perform] at h
    cases ht : (⟨identity, frame :: callers, loops, timers⟩ : Context).continueLoop with
    | error cause => simp [ht, State.attempt, settle] at h
    | ok context =>
      obtain ⟨_, _, _, _, hf, rfl⟩ := Context.continueLoop_redirects ht
      cases hf
      rw [ht] at h
      cases h
      exact Nat.le_refl _
  | finish value => exact absurd rfl (hn value)
  | call target arguments =>
    rw [perform_call] at h
    cases hs : machine.startOf site target arguments (callers.length + 1) with
    | inl degraded =>
      rw [hs] at h
      cases (stored_eq ..).symm.trans h
      exact Nat.le_refl _
    | inr started =>
      rw [hs] at h
      cases h
      exact Nat.le_succ _

/-- What is tried on a context in a step after which the run goes on. -/
theorem Machine.depth_of_stepAt {state : State} {operation : Operation} {tried : Except Cause Context}
    (he : machine.execute operation state = state.attempt .continues tried)
    (ht : ∀ context, tried = .ok context → context.depth = state.context.depth)
    (h : machine.stepAt ⟨operation, span⟩ state = (.running record, after)) :
    after.context.depth = state.context.depth := by
  rw [stepAt, he] at h
  cases tried with
  | error cause => cases h
  | ok context =>
    cases h
    exact ht context rfl

/-- An operation other than a command ends no frame. -/
theorem Machine.depth_of_operation {operation : Operation} (hn : ∀ use, operation ≠ .command use)
    (h : machine.stepAt ⟨operation, span⟩ ⟨⟨identity, frame :: callers, loops, timers⟩, world⟩ =
      (.running record, after)) : after.context.depth = callers.length + 1 := by
  cases operation with
  | command use => exact absurd rfl (hn use)
  | assign target expression =>
    refine depth_of_stepAt rfl (fun _ ht => ?_) h
    rw [assign_eq] at ht
    obtain ⟨value, -, rfl⟩ := ok_of_map ht
    rfl
  | branch condition otherwise =>
    refine depth_of_stepAt rfl (fun _ ht => ?_) h
    rw [branch_eq] at ht
    obtain ⟨value, -, rfl⟩ := ok_of_map ht
    rfl
  | loopStart condition exit =>
    refine depth_of_stepAt rfl (fun _ ht => ?_) h
    obtain ⟨_, _, _, _, hf, rfl⟩ := loopStart_redirects machine ht
    cases hf
    rfl
  | jump target => cases h; rfl
  | loopEnd start => cases h; rfl

/-- A result that is handed over to a caller, with what is recorded about it. -/
structure Machine.HandsOver (machine : Machine) (state : State) (callee caller : Frame)
    (callers : List Frame) (resume : ResumePoint) (record : Option Fault) (after : State)
    (value : Value) : Prop where
  returns : machine.Returns state value
  frames : after.context.frames = caller.deliver resume value :: callers
  recorded : ∃ span, record = (Context.discardedType resume.expected value).map fun type =>
    ⟨.call (.discarded callee.script.name type resume.expected), span⟩

/-- The step that ends a called script returns its value. -/
theorem Machine.step_returns {state : State} {resume : ResumePoint}
    (hgeneral : machine.commands = .general)
    (hf : state.context.frames = frame :: caller :: callers) (hr : frame.resume = some resume)
    (hp : frame.pending = none) (hs : machine.step state = (.running record, after))
    (hd : after.context.depth < state.context.depth) :
    ∃ value, machine.HandsOver state frame caller callers resume record after value := by
  obtain ⟨⟨identity, frames, loops, timers⟩, world⟩ := state
  simp only at hf
  subst hf
  cases hi : frame.script.instructions[frame.ip]? with
  | none =>
    have stands : frame.operation? = none := by simp [Frame.operation?, hi]
    rw [step_behind machine rfl hi] at hs
    simp only [stepOut, State.leave, Context.leave_callee hr, hp, Option.getD_none, Option.map_map,
      Prod.mk.injEq, Progress.running.injEq] at hs
    refine ⟨.invalid, .behind rfl stands, ?_, none, hs.1.symm⟩
    rw [← hs.2]
  | some instruction =>
    obtain ⟨operation, span⟩ := instruction
    have stands : frame.operation? = some operation := by simp [Frame.operation?, hi]
    rw [step_at machine rfl hi] at hs
    cases operation with
    | command use =>
      obtain ⟨arguments, command, action, world', ha, hl, hanswers, hperform⟩ :=
        command_running hgeneral hs
      by_cases hfinish : ∃ value, action = .finish value
      · obtain ⟨value, rfl⟩ := hfinish
        obtain ⟨rfl, one, rfl⟩ := hanswers.of_finish
        have hl' : { frame with pending := some (arguments.headD .invalid) }.resume = some resume := hr
        simp only [perform, Context.setPending, Context.updateFrame, State.leave,
          Context.leave_callee hl', settle, Option.getD_some, Option.map_map, Prod.mk.injEq,
          Progress.running.injEq] at hperform
        refine ⟨arguments.headD .invalid, .command rfl stands hl ha one, ?_, some span,
          hperform.1.symm⟩
        rw [← hperform.2]
      · have hle := depth_of_perform (fun value hv => hfinish ⟨value, hv⟩) hperform
        exact absurd hd (Nat.not_lt_of_le hle)
    | _ =>
      have hsame := depth_of_operation (by simp) hs
      exact absurd hd (Nat.not_lt_of_le (Nat.le_of_eq hsame.symm))

end

/-- In every state of a run a result is known only at the very end of its frame. -/
theorem Engine.Reachable.pending {engine : Engine} {state : State} (h : engine.Reachable state) :
    ∀ frame ∈ state.context.frames, frame.pending = none :=
  h.forall_frame (P := fun frame => frame.pending = none) (fun _ _ _ _ _ => rfl) fun _ _ _ hp => hp

/-- The caller goes on behind a call that promised a type, given what the called script returned, if it
was started. The local that takes the result has a value of the promised type: the returned one if it is
of that type, and else the zero value. A failed call is recorded exactly if the script was not started or
if it returned something that was discarded. -/
structure Completes (caller : Frame) (callers : List Frame) (slot : String) (promised : DataType)
    (returned : Option Value) (record : Option Fault) (after : State) : Prop where
  stored : ∃ value, value.Fits promised ∧
    (∀ result, returned = some result → result.Fits promised → value = result) ∧
    ((∀ result, returned = some result → ¬ result.Fits promised) → value = .zero promised) ∧
    after.context.frames = { caller with
      ip := caller.ip + 1
      locals := caller.locals.insert slot value } :: callers
  recorded : record.isSome ↔ returned = none ∨
    ∃ result, returned = some result ∧ result ≠ .invalid ∧ ¬ result.Fits promised
  kind : ∀ fault, record = some fault → fault.kind = .callFailure

section

variable {caller : Frame} {callers : List Frame} {slot : String} {promised : DataType} {after : State}

theorem Completes.of_degraded {fault : CallFault} {span : Option Span}
    (h : after.context.frames = { caller with
      ip := caller.ip + 1
      locals := caller.locals.insert slot (.zero promised) } :: callers) :
    Completes caller callers slot promised none (some ⟨.call fault, span⟩) after where
  stored := ⟨.zero promised, Value.zero_fits promised, nofun, fun _ => rfl, h⟩
  recorded := ⟨fun _ => .inl rfl, fun _ => rfl⟩
  kind := by
    rintro _ ⟨⟩
    rfl

theorem Machine.HandsOver.completes {machine : Machine} {state : State} {callee : Frame}
    {record : Option Fault} {value : Value}
    (h : machine.HandsOver state callee caller callers ⟨caller.ip + 1, some slot, promised⟩ record
      after value) :
    Completes caller callers slot promised (some value) record after where
  stored := by
    refine ⟨value.coerce promised, value.coerce_fits promised, ?_, fun hn => ?_, h.frames⟩
    · rintro _ ⟨⟩ hfits
      exact Value.coerce_of_fits hfits
    · exact Value.coerce_of_not_fits (hn value rfl)
  recorded := by
    obtain ⟨span, hr⟩ := h.recorded
    rw [hr, Option.isSome_map, Context.discardedType_isSome]
    simp
  kind := by
    obtain ⟨span, hr⟩ := h.recorded
    rintro fault rfl
    obtain ⟨type, -, hf⟩ := Option.map_eq_some_iff.mp hr.symm
    rw [← hf]
    rfl

end

/-- The result of a call has the type that the call promises. Consider a call with a local for its
result, in any state of a run with the general commands, after whose step the run goes on. It names a
target. If the call cannot start, then this step completes it and records a failed call. If it can, then
nothing is recorded, the called script runs on top of the caller, and the step with which it ends
completes the call with the value that it returns. -/
theorem call_result_has_promised_type {engine : Engine}
    (hgeneral : engine.machine.commands = .general) {called started : State} {caller : Frame}
    {callers : List Frame} {use : CommandUse} {slot : String} {record : Option Fault}
    (hreach : engine.Reachable called) (hframes : called.context.frames = caller :: callers)
    (hstands : caller.operation? = some (.command use))
    (hcall : engine.machine.commands.lookup use.name = some General.callCommand)
    (hslot : use.result = some slot)
    (hstep : engine.machine.step called = (.running record, started)) :
    ∃ target arguments, use.arguments.mapM (engine.machine.evaluate · caller.locals) =
        .ok (.string target :: arguments) ∧
      (¬ engine.machine.CanStart target arguments called.context.depth →
        Completes caller callers slot (engine.machine.promisedType use.expect target) none record
          started) ∧
      (engine.machine.CanStart target arguments called.context.depth →
        record = none ∧ started.context.depth = called.context.depth + 1 ∧
        ∀ later, Relation.ReflTransGen (engine.machine.GoesAbove called.context.depth) started later →
          ∀ record' after, engine.machine.step later = (.running record', after) →
            after.context.depth ≤ called.context.depth →
            ∃ returned, engine.machine.Returns later returned ∧
              Completes caller callers slot (engine.machine.promisedType use.expect target)
                (some returned) record' after) := by
  have howned : ∀ loop ∈ called.context.loops, loop.depth ≤ (caller :: callers).length := by
    simpa only [Context.LoopsOwned, hframes] using hreach.owned
  have hstarted : engine.Reachable started := hreach.reaches (.single ⟨record, hstep⟩)
  obtain ⟨⟨operation, span⟩, hi, ho⟩ := Option.map_eq_some_iff.mp hstands
  simp only at ho
  subst ho
  obtain ⟨⟨identity, frames, loops, timers⟩, world⟩ := called
  simp only at hframes
  subst hframes
  obtain ⟨target, arguments, ha⟩ := Machine.target_of_running hgeneral hi hcall hstep
  refine ⟨target, arguments, ha, ?_⟩
  rw [Machine.step_call hgeneral hi hcall ha, hslot] at hstep
  cases hs : engine.machine.startOf ⟨some slot, use.expect⟩ target arguments
      (callers.length + 1) with
  | inl degraded =>
    obtain ⟨value, fault⟩ := degraded
    obtain ⟨rfl, hn⟩ := Machine.startOf_degraded hs
    rw [hs] at hstep
    cases hstep
    exact ⟨fun _ => .of_degraded rfl, fun hc => absurd hc hn⟩
  | inr launched =>
    obtain ⟨script, locals, promised⟩ := launched
    obtain ⟨rfl, hc⟩ := Machine.startOf_started hs
    rw [hs] at hstep
    cases hstep
    refine ⟨fun hn => absurd hc hn, fun _ => ⟨rfl, rfl, ?_⟩⟩
    intro later hlater record' after hend hd
    -- The called script ends in a state of the run in which it lies right above its caller.
    have hbeneath := Beneath.reaches
      ⟨[], _, [], rfl, rfl, rfl, fun _ hm => absurd hm List.not_mem_nil⟩ howned hlater
    obtain ⟨callee, hf, hr⟩ := hbeneath.innermost ⟨record', hend⟩ hd
    have hlast : engine.Reachable later :=
      hstarted.reaches (Relation.ReflTransGen.mono (fun _ _ hg => hg.1) _ _ hlater)
    have hpending : callee.pending = none :=
      hlast.pending callee (hf ▸ List.mem_cons_self ..)
    have hdrop : after.context.depth < later.context.depth := by
      rw [show later.context.depth = callers.length + 2 from congrArg List.length hf]
      exact Nat.lt_succ_of_le hd
    obtain ⟨returned, hover⟩ := Machine.step_returns hgeneral hf hr hpending hend hdrop
    exact ⟨returned, hover.returns, hover.completes⟩

/-- An engine with a script that asks another one for a reference and gets a text. -/
def confused : Engine where
  machine :=
    { commands := .general
      scripts := .ofList
        [("main", ⟨"main", "main.script.xml", [], .multi,
          [⟨.command ⟨"call", ["reply"], some "x", some .reference⟩, .atLine 1⟩]⟩),
          ("reply", ⟨"reply", "reply.script.xml", [], .multi,
            [⟨.command ⟨"return", ["text"], none, none⟩, .atLine 1⟩]⟩)]
      evaluate := fun expression _ => .ok (.string expression) }
  stepLimit := 10

/-- The state of `confused` at its start. -/
def confusedStart : State :=
  ⟨Context.start ((confused.machine.scripts.get? "main").getD ⟨"", "", [], .multi, []⟩) .empty, {}⟩

theorem confused_result_is_reference :
    let started := (confused.machine.step confusedStart).2
    let after := (confused.machine.step started).2
    confused.Reachable confusedStart ∧ confused.machine.CanStart "reply" [] 1 ∧
      (confused.machine.step started).1 =
        .running (some ⟨.call (.discarded "reply" .string .reference), some (.atLine 1)⟩) ∧
      after.context.local? "x" = some (.reference 0) ∧
      ∃ caller returned record, confusedStart.context.frames = [caller] ∧
        confused.machine.Returns started returned ∧
        Completes caller [] "x" .reference (some returned) record after := by
  intro started after
  have hprepared : confused.prepare "main" [] = .ok confusedStart.context := rfl
  have hreach : confused.Reachable confusedStart :=
    ⟨"main", [], confusedStart.context, .empty, {}, hprepared, .refl⟩
  have hfirst : confused.machine.step confusedStart = (.running none, started) :=
    Prod.ext (by decide +kernel) rfl
  have hsecond : (confused.machine.step started).1 =
      .running (some ⟨.call (.discarded "reply" .string .reference), some (.atLine 1)⟩) := by
    decide +kernel
  have hstart : confused.machine.CanStart "reply" [] 1 := ⟨_, _, rfl, by decide, rfl⟩
  obtain ⟨target, arguments, ha, -, hcompletes⟩ :=
    call_result_has_promised_type rfl hreach rfl rfl rfl rfl hfirst
  cases ha
  obtain ⟨-, -, hends⟩ := hcompletes hstart
  obtain ⟨returned, hreturns, hresult⟩ :=
    hends started .refl _ after (Prod.ext hsecond rfl) (by decide +kernel)
  exact ⟨hreach, hstart, hsecond, by decide +kernel, _, returned, _, rfl, hreturns, hresult⟩

end ScriptEngine
