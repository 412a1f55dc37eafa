import ScriptEngine.Proofs.Machine.Dispatch

/-!
# Where failures are placed

Every failure of a run points at the instruction that caused it (`failures_point_at_instructions`): a
fault with which the run ends, and each result that was replaced by a zero value.

* `Machine.Degrades` says which steps replace a result: the call of a script that cannot start, and the
  return of a value that the caller does not admit. Such a step records one failed call, at its
  instruction (`Machine.Degrades.step`), and no other step records anything
  (`Engine.Reachable.degrades`). A frame that ends behind its last instruction has no place to point at,
  but neither has it a result that could be discarded.
* `Engine.Reachable.fails_at`: a step fails only at an instruction.
* `Machine.Recorded` puts the steps of a run beside what they record, in order.
-/

namespace ScriptEngine

theorem Context.discardedType_invalid (promised : DataType) :
    discardedType promised .invalid = none := by
  rw [← Option.not_isSome_iff_eq_none, discardedType_isSome]
  exact fun h => h.1 rfl

/-- The next step replaces the result of a call by a zero value, at the instruction of a span. -/
inductive Machine.Degrades (machine : Machine) (state : State) : Span → Prop
  /-- It calls a script that cannot start. -/
  | call {frame : Frame} {callers : List Frame} {use : CommandUse} {span : Span} {target : String}
      {arguments : List Value} (frames : state.context.frames = frame :: callers)
      (stands : frame.script.instructions[frame.ip]? = some ⟨.command use, span⟩)
      (found : machine.commands.lookup use.name = some General.callCommand)
      (evaluates : use.arguments.mapM (machine.evaluate · frame.locals) =
        .ok (.string target :: arguments))
      (barred : ¬ machine.CanStart target arguments state.context.depth) :
      Degrades machine state span
  /-- It returns a value that is not of the type that the caller asked for. -/
  | result {frame caller : Frame} {callers : List Frame} {use : CommandUse} {span : Span}
      {arguments : List Value} {resume : ResumePoint}
      (frames : state.context.frames = frame :: caller :: callers)
      (stands : frame.script.instructions[frame.ip]? = some ⟨.command use, span⟩)
      (found : machine.commands.lookup use.name = some General.returnCommand)
      (evaluates : use.arguments.mapM (machine.evaluate · frame.locals) = .ok arguments)
      (one : arguments.length ≤ 1) (resumes : frame.resume = some resume)
      (something : arguments.headD .invalid ≠ .invalid)
      (unfit : ¬ (arguments.headD .invalid).Fits resume.expected) :
      Degrades machine state span

section

variable {machine : Machine} {identity : String} {frame caller : Frame} {callers : List Frame}
  {loops : List LoopContext} {timers : Dictionary Timer} {world : World} {use : CommandUse}
  {span : Span} {record : Option Fault} {after : State}

/-- The step of a return to a caller. -/
theorem Machine.step_return {arguments : List Value} {resume : ResumePoint}
    (hi : frame.script.instructions[frame.ip]? = some ⟨.command use, span⟩)
    (hreturn : machine.commands.lookup use.name = some General.returnCommand)
    (ha : use.arguments.mapM (machine.evaluate · frame.locals) = .ok arguments)
    (one : arguments.length ≤ 1) (hr : frame.resume = some resume) :
    machine.step ⟨⟨identity, frame :: caller :: callers, loops, timers⟩, world⟩ =
      (.running ((Context.discardedType resume.expected (arguments.headD .invalid)).map fun type =>
          ⟨.call (.discarded frame.script.name type resume.expected), some span⟩),
        ⟨⟨identity, caller.deliver resume (arguments.headD .invalid) :: callers,
          loops.filter (·.depth ≤ (caller :: callers).length), timers⟩, world.readClock.2⟩) := by
  have hr' : { frame with pending := some (arguments.headD .invalid) }.resume = some resume := hr
  rw [step_at machine rfl hi, stepAt_command, ha]
  simp only [dispatch_eq, CommandTable.request_return hreturn identity one, perform,
    Context.setPending, Context.updateFrame, State.leave, Context.leave_callee hr', settle,
    Option.getD_some, Option.map_map]
  rfl

/-- A step that replaces a result records a failed call at its instruction, and the run goes on. -/
theorem Machine.Degrades.step {state : State} (h : machine.Degrades state span)
    (hgeneral : machine.commands = .general) :
    ∃ fault after, machine.step state = (.running (some ⟨.call fault, some span⟩), after) := by
  obtain ⟨⟨identity, frames, loops, timers⟩, world⟩ := state
  cases h with
  | @call frame callers use _ target arguments frames stands found evaluates barred =>
    simp only at frames
    subst frames
    cases hs : machine.startOf ⟨use.result, use.expect⟩ target arguments (callers.length + 1) with
    | inl degraded =>
      rw [step_call hgeneral stands found evaluates, hs]
      exact ⟨degraded.2, _, rfl⟩
    | inr started => exact absurd (startOf_started hs).2 barred
  | @result frame caller callers use _ arguments resume frames stands found evaluates one resumes
      something unfit =>
    simp only at frames
    subst frames
    have hsome := Context.discardedType_isSome.mpr ⟨something, unfit⟩
    obtain ⟨type, htype⟩ := Option.isSome_iff_exists.mp hsome
    rw [step_return stands found evaluates one resumes, htype]
    exact ⟨_, _, rfl⟩

/-- A step that records nothing, or after which the run does not go on, replaces no result. -/
theorem Machine.not_degrades {state : State} {progress : Progress}
    (hgeneral : machine.commands = .general) (hs : machine.step state = (progress, after))
    (hp : ∀ fault, progress ≠ .running (some fault)) (span : Span) : ¬ machine.Degrades state span := by
  intro hd
  obtain ⟨fault, after', hstep⟩ := hd.step hgeneral
  exact hp _ (congrArg Prod.fst (hs.symm.trans hstep))

/-- What a command asks for records something if it is a call that cannot start or the end of a frame. -/
theorem Machine.recorded_of_perform {site : CallSite} {now : Nat} {action : Action} {fault : Fault}
    (h : settle use span (machine.perform site now action
      ⟨⟨identity, frame :: callers, loops, timers⟩, world⟩) = (.running (some fault), after)) :
    (∃ value, action = .finish value) ∨
      ∃ target arguments, action = .call target arguments ∧
        ¬ machine.CanStart target arguments (callers.length + 1) := by
  cases action with
  | value value => cases (stored_eq ..).symm.trans h
  | print message => cases (stored_eq ..).symm.trans h
  | secondsPassed => cases (stored_eq ..).symm.trans h
  | breakLoop =>
    rw [perform_breakLoop] at h
    cases ho : ownLoop? (callers.length + 1) loops <;> rw [ho] at h <;> cases h
  | continueLoop =>
    rw [perform] at h
    cases ht : (⟨identity, frame :: callers, loops, timers⟩ : Context).continueLoop <;>
      rw [ht] at h <;> cases h
  | finish value => exact .inl ⟨value, rfl⟩
  | call target arguments =>
    rw [perform_call] at h
    cases hs : machine.startOf site target arguments (callers.length + 1) with
    | inl degraded => exact .inr ⟨target, arguments, rfl, (startOf_degraded hs).2⟩
    | inr started =>
      rw [hs] at h
      cases h

/-- An operation other than a command records nothing. -/
theorem Machine.silent_of_operation {operation : Operation} {state : State}
    (hn : ∀ use, operation ≠ .command use)
    (h : machine.stepAt ⟨operation, span⟩ state = (.running record, after)) : record = none := by
  have hattempt : ∃ tried, machine.execute operation state = state.attempt .continues tried := by
    cases operation with
    | command use => exact absurd rfl (hn use)
    | _ => exact ⟨_, rfl⟩
  obtain ⟨tried, he⟩ := hattempt
  rw [stepAt, he] at h
  cases tried <;> cases h
  rfl

end

section

variable {engine : Engine} {state after : State}

/-- No other step of a run records anything. -/
theorem Engine.Reachable.degrades {fault : Fault} (h : engine.Reachable state)
    (hgeneral : engine.machine.commands = .general)
    (hs : engine.machine.step state = (.running (some fault), after)) :
    ∃ span, engine.machine.Degrades state span := by
  have hpending := h.pending
  have hresumable := h.resumable
  obtain ⟨frame, callers, hf⟩ := h.frames
  obtain ⟨⟨identity, frames, loops, timers⟩, world⟩ := state
  simp only at hf
  subst hf
  cases hi : frame.script.instructions[frame.ip]? with
  | none =>
    -- The frame ends without a result, and nothing that is returned is discarded.
    rw [Machine.step_behind _ rfl hi] at hs
    have hnone : frame.pending = none := hpending frame (List.mem_cons_self ..)
    cases callers with
    | nil => cases hs
    | cons caller others =>
      obtain ⟨resume, hr⟩ := Option.isSome_iff_exists.mp hresumable.1
      simp only [Machine.stepOut, State.leave, Context.leave_callee hr, hnone, Option.getD_none,
        Context.discardedType_invalid] at hs
      cases hs
  | some instruction =>
    obtain ⟨operation, span⟩ := instruction
    have hat := hs
    rw [Machine.step_at _ rfl hi] at hat
    cases operation with
    | command use =>
      obtain ⟨arguments, command, action, world', ha, hl, hanswers, hperform⟩ :=
        Machine.command_running hgeneral hat
      rcases Machine.recorded_of_perform hperform with ⟨value, rfl⟩ | ⟨target, rest, rfl, hn⟩
      · obtain ⟨rfl, one, rfl⟩ := hanswers.of_finish
        cases callers with
        | nil => cases hperform
        | cons caller others =>
          obtain ⟨resume, hr⟩ := Option.isSome_iff_exists.mp hresumable.1
          rw [Machine.step_return hi hl ha one hr, Prod.mk.injEq, Progress.running.injEq,
            Option.map_eq_some_iff] at hs
          obtain ⟨⟨type, htype, -⟩, -⟩ := hs
          obtain ⟨something, unfit⟩ :=
            Context.discardedType_isSome.mp (Option.isSome_iff_exists.mpr ⟨type, htype⟩)
          exact ⟨span, .result rfl hi hl ha one hr something unfit⟩
      · obtain ⟨rfl, rfl⟩ := hanswers.of_call
        exact ⟨span, .call rfl hi hl ha hn⟩
    | _ => cases Machine.silent_of_operation (by simp) hat

/-- A step of a run fails at an instruction. -/
theorem Engine.Reachable.fails_at {fault : Fault} (h : engine.Reachable state)
    (hs : engine.machine.step state = (.failed fault, after)) :
    ∃ frame callers instruction, state.context.frames = frame :: callers ∧
      frame.script.instructions[frame.ip]? = some instruction ∧
      fault.span = some instruction.span := by
  have hresumable := h.resumable
  obtain ⟨frame, callers, hf⟩ := h.frames
  obtain ⟨⟨identity, frames, loops, timers⟩, world⟩ := state
  simp only at hf
  subst hf
  cases hi : frame.script.instructions[frame.ip]? with
  | none =>
    rw [Machine.step_behind _ rfl hi] at hs
    cases callers with
    | nil => cases hs
    | cons caller others =>
      obtain ⟨resume, hr⟩ := Option.isSome_iff_exists.mp hresumable.1
      simp only [Machine.stepOut, State.leave, Context.leave_callee hr] at hs
      cases hs
  | some instruction =>
    refine ⟨frame, callers, instruction, rfl, hi, ?_⟩
    rw [Machine.step_at _ rfl hi, Machine.stepAt] at hs
    split at hs <;> cases hs
    rfl

end

/-! ## Whole runs -/

namespace Machine

/-- The states of a run before each of its steps, as far as a number of steps. -/
def visited (machine : Machine) : Nat → State → List State
  | 0, _ => []
  | remaining + 1, state =>
    state :: match machine.step state with
      | (.running _, after) => machine.visited remaining after
      | _ => []

/-- The states before the steps of a run beside what was recorded of them: a failed call at the
instruction of each step that replaced a result, and nothing of the others. -/
inductive Recorded (machine : Machine) : List State → List Fault → Prop
  | none : Recorded machine [] []
  | silent {state : State} {states : List State} {faults : List Fault}
      (keeps : ∀ span, ¬ machine.Degrades state span) (rest : Recorded machine states faults) :
      Recorded machine (state :: states) faults
  | failure {state : State} {states : List State} {span : Span} {fault : Fault} {faults : List Fault}
      (degrades : machine.Degrades state span) (kind : fault.kind = .callFailure)
      (place : fault.span = some span) (rest : Recorded machine states faults) :
      Recorded machine (state :: states) (fault :: faults)

variable {machine : Machine} {states states' : List State} {faults faults' : List Fault}

theorem Recorded.append (h : machine.Recorded states faults) (h' : machine.Recorded states' faults') :
    machine.Recorded (states ++ states') (faults ++ faults') := by
  induction h with
  | none => exact h'
  | silent keeps _ ih => exact .silent keeps ih
  | failure degrades kind place _ ih => exact .failure degrades kind place ih

theorem Recorded.span_isSome (h : machine.Recorded states faults) :
    ∀ fault ∈ faults, fault.span.isSome := by
  induction h with
  | none => exact fun _ hm => absurd hm List.not_mem_nil
  | silent _ _ ih => exact ih
  | failure _ _ place _ ih => exact List.forall_mem_cons.mpr ⟨by rw [place]; rfl, ih⟩

/-- The states of a run that ends with a step after some others. -/
theorem visited_last {progress : Progress} {final last : State} (remaining : Nat)
    (ends : machine.step last = (progress, final)) (hp : ∀ degraded, progress ≠ .running degraded) :
    machine.visited (remaining + 1) last = [last] := by
  rw [visited, ends]
  cases progress with
  | running degraded => exact absurd rfl (hp degraded)
  | finished value => rfl
  | failed fault => rfl

end Machine

section

variable {engine : Engine} {state after : State}

/-- A step of a run after which it goes on records a failed call if it replaces a result, and nothing
otherwise. -/
theorem Engine.Reachable.recorded_step {record : Option Fault} (h : engine.Reachable state)
    (hgeneral : engine.machine.commands = .general)
    (hs : engine.machine.step state = (.running record, after)) :
    engine.machine.Recorded [state] record.toList := by
  cases record with
  | none => exact .silent (Machine.not_degrades hgeneral hs (by simp)) .none
  | some fault =>
    obtain ⟨span, hd⟩ := h.degrades hgeneral hs
    obtain ⟨cause, after', hstep⟩ := hd.step hgeneral
    cases hs.symm.trans hstep
    exact .failure hd rfl rfl .none

/-- The steps of a run and what they record. -/
theorem Engine.Reachable.recorded {steps : Nat} {first last : State × Log}
    (ht : engine.machine.Takes steps first last) (h : engine.Reachable first.1)
    (hgeneral : engine.machine.commands = .general) :
    ∃ states faults, engine.machine.Recorded states faults ∧
      last.2.degraded = first.2.degraded ++ faults ∧
      ∀ remaining, engine.machine.visited (steps + remaining) first.1 =
        states ++ engine.machine.visited remaining last.1 := by
  induction ht with
  | stay => exact ⟨[], [], .none, by simp, fun remaining => by rw [Nat.zero_add]; rfl⟩
  | @step steps before after log last record goes rest ih =>
    obtain ⟨states, faults, hrecorded, hdegraded, hvisited⟩ :=
      ih (h.reaches (.single ⟨record, goes⟩))
    refine ⟨before :: states, record.toList ++ faults,
      (h.recorded_step hgeneral goes).append hrecorded, ?_, fun remaining => ?_⟩
    · rw [hdegraded, Log.add, List.append_assoc]
    · rw [Nat.add_right_comm, Machine.visited, goes]
      exact congrArg (before :: ·) (hvisited remaining)

end

/-- Every failure in the result of a run that starts in a state points at the instruction that caused it.
A fault with which it ends, if it is not that of the limit on the number of steps, is the one with which
the last step fails, and has the span of the instruction at which the innermost frame stands before that
step. The results that were replaced are those of the steps that do so, in order, and each is placed at
the instruction of its step. -/
structure Machine.Placed (machine : Machine) (limit : Nat) (start : State)
    (result : Except Fault Outcome) : Prop where
  failed : ∀ fault, result = .error fault →
    fault = ⟨.stepLimit start.context.identity limit, none⟩ ∨
      ∃ state after frame callers instruction,
        (machine.visited limit start).getLast? = some state ∧
        machine.step state = (.failed fault, after) ∧
        state.context.frames = frame :: callers ∧
        frame.script.instructions[frame.ip]? = some instruction ∧
        fault.span = some instruction.span
  degraded : ∀ outcome, result = .ok outcome →
    machine.Recorded (machine.visited limit start) outcome.degraded
  spans : ∀ outcome, result = .ok outcome → ∀ fault ∈ outcome.degraded, fault.span.isSome

theorem Engine.Reachable.placed {engine : Engine} {start : State} (h : engine.Reachable start)
    (hgeneral : engine.machine.commands = .general) (limit : Nat) :
    engine.machine.Placed limit start (engine.machine.run limit start).1 := by
  have hends := engine.machine.runEnds limit start
  generalize engine.machine.run limit start = result at hends ⊢
  cases hends with
  | @finished steps last value final taken ends within =>
    obtain ⟨states, faults, hrecorded, hdegraded, hvisited⟩ := h.recorded taken hgeneral
    obtain ⟨more, rfl⟩ := Nat.exists_eq_add_of_lt within
    have hlast : engine.machine.visited (steps + more + 1) start = states ++ [last.1] := by
      rw [Nat.add_assoc, hvisited, Machine.visited_last more ends (by simp)]
    have hall : engine.machine.Recorded (states ++ [last.1]) last.2.degraded := by
      rw [hdegraded, List.nil_append, ← List.append_nil faults]
      exact hrecorded.append (.silent (Machine.not_degrades hgeneral ends (by simp)) .none)
    refine ⟨nofun, ?_, ?_⟩ <;> rintro outcome ⟨⟩
    · rwa [hlast]
    · exact hall.span_isSome
  | @failed steps last fault final taken ends within =>
    obtain ⟨states, faults, -, -, hvisited⟩ := h.recorded taken hgeneral
    obtain ⟨more, rfl⟩ := Nat.exists_eq_add_of_lt within
    have hlast : engine.machine.visited (steps + more + 1) start = states ++ [last.1] := by
      rw [Nat.add_assoc, hvisited, Machine.visited_last more ends (by simp)]
    obtain ⟨frame, callers, instruction, hf, hi, hspan⟩ := (h.reaches taken.reaches).fails_at ends
    refine ⟨?_, nofun, nofun⟩
    rintro _ ⟨⟩
    refine .inr ⟨last.1, final, frame, callers, instruction, ?_, ends, hf, hi, hspan⟩
    rw [hlast, List.getLast?_concat]
  | cut taken =>
    refine ⟨?_, nofun, nofun⟩
    rintro _ ⟨⟩
    rw [taken.identity]
    exact .inl rfl

/-- Every failure of a run points at the instruction that caused it. For every engine with the general
commands, any scripts and any evaluator, and every run or background run of a script that can be
prepared: a fault with which it ends, other than that of the limit on the number of steps, has the span
of the instruction at which the innermost frame stood when it failed. The list of replaced results has,
in the order of execution, one failed call for each call that could not start, at that call, and for each
returned value that was discarded, at the return; so none of them is without a span. -/
theorem failures_point_at_instructions {engine : Engine}
    (hgeneral : engine.machine.commands = .general) {name : String} {arguments : List Value}
    {context : Context} (hprepared : engine.prepare name arguments = .ok context)
    (timers : Dictionary Timer) (world : World) :
    engine.machine.Placed engine.stepLimit ⟨context, world⟩ (engine.run name arguments world).1 ∧
    engine.machine.Placed engine.stepLimit ⟨context.withTimers timers, world⟩
      ({ engine with timers }.runBackground name arguments world).1 := by
  have hreach : ∀ timers, engine.Reachable ⟨context.withTimers timers, world⟩ := fun timers =>
    ⟨name, arguments, context, timers, world, hprepared, .refl⟩
  have hprepared' : { engine with timers }.prepare name arguments = .ok context := hprepared
  simp only [Engine.run, Engine.runBackground, hprepared, hprepared']
  exact ⟨(hreach .empty).placed hgeneral engine.stepLimit,
    (hreach timers).placed hgeneral engine.stepLimit⟩

/-- One script calls another that is not there and a third that returns a text instead of a reference,
and there is one that leaves a loop in which it is not. -/
def misplaced : Engine where
  machine :=
    { commands := .general
      scripts := .ofList
        [("main", ⟨"main", "main.script.xml", [], .multi,
          [⟨.command ⟨"call", ["missing"], none, none⟩, .atLine 1⟩,
            ⟨.command ⟨"call", ["reply"], some "x", some .reference⟩, .atLine 2⟩]⟩),
          ("reply", ⟨"reply", "reply.script.xml", [], .multi,
            [⟨.command ⟨"return", ["text"], none, none⟩, .atLine 7⟩]⟩),
          ("stray", ⟨"stray", "stray.script.xml", [], .multi,
            [⟨.command ⟨"call", ["missing"], none, none⟩, .atLine 1⟩,
              ⟨.command ⟨"break", [], none, none⟩, .atLine 3⟩]⟩)]
      evaluate := fun expression _ => .ok (.string expression) }
  stepLimit := 10

theorem misplaced_points_at_instructions :
    (misplaced.run "main" [] {}).1 =
        .ok ⟨.invalid, 4, [⟨.call (.missingTarget "missing"), some (.atLine 1)⟩,
          ⟨.call (.discarded "reply" .string .reference), some (.atLine 7)⟩]⟩ ∧
      (misplaced.run "stray" [] {}).1 = .error ⟨.outsideLoop .breakOut, some (.atLine 3)⟩ ∧
      (∃ context, misplaced.prepare "main" [] = .ok context ∧
        misplaced.machine.Placed 10 ⟨context, {}⟩ (misplaced.run "main" [] {}).1) ∧
      ∃ context, misplaced.prepare "stray" [] = .ok context ∧
        misplaced.machine.Placed 10 ⟨context, {}⟩ (misplaced.run "stray" [] {}).1 := by
  have hmain : misplaced.prepare "main" [] = .ok (Context.start
      ((misplaced.machine.scripts.get? "main").getD ⟨"", "", [], .multi, []⟩) .empty) := rfl
  have hstray : misplaced.prepare "stray" [] = .ok (Context.start
      ((misplaced.machine.scripts.get? "stray").getD ⟨"", "", [], .multi, []⟩) .empty) := rfl
  exact ⟨rfl, rfl, ⟨_, hmain, (failures_point_at_instructions rfl hmain .empty {}).1⟩,
    ⟨_, hstray, (failures_point_at_instructions rfl hstray .empty {}).1⟩⟩

end ScriptEngine
