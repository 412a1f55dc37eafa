import ScriptEngine.Proofs.Command.General
import ScriptEngine.Proofs.Machine.Events

/-!
# Runs in other surroundings

Apart from its stacks a run depends on timers, a clock and a console: its `Surroundings`. What it can
notice of them is little. The console never answers, and of clock and timers nothing is seen but the time
that has passed between two ticks.

`Indistinct` says what a relation between surroundings has to keep up so that no run with the general
commands can tell related surroundings apart: a reading of the clock, a message and a tick lead to related
surroundings again, and a tick measures the same time in both. Then two runs that start with the same
stacks in related surroundings take the same steps (`Machine.step_parallel`), and so they have the same
outcome and end in related surroundings (`Machine.run_parallel`, `Engine.run_parallel`).

The first use is that a console which fails to write messages changes nothing
(`console_failures_change_nothing`).
-/

namespace ScriptEngine

/-- What a run has apart from its stacks. -/
structure Surroundings where
  timers : Dictionary Timer
  world : World

namespace Surroundings

/-- The clock is read. -/
def read (here : Surroundings) : Surroundings :=
  { here with world := here.world.readClock.2 }

/-- A message is offered to the console. -/
def print (here : Surroundings) (message : String) : Surroundings :=
  { here with world := here.world.print message }

/-- The time that a tick of a script measures. -/
def elapsed (here : Surroundings) (script : String) : Nat :=
  (tickOf here.timers script here.world.readClock.1).1

/-- A script reads the clock and its timer ticks. -/
def tick (here : Surroundings) (script : String) : Surroundings :=
  ⟨here.timers.insert script (tickOf here.timers script here.world.readClock.1).2,
    here.world.readClock.2⟩

end Surroundings

/-- A relation between surroundings that no run can tell apart. -/
structure Indistinct (alike : Surroundings → Surroundings → Prop) : Prop where
  read : ∀ {here there}, alike here there → alike here.read there.read
  print : ∀ {here there}, alike here there → ∀ message, alike (here.print message) (there.print message)
  tick : ∀ {here there}, alike here there → ∀ script, alike (here.tick script) (there.tick script)
  elapsed : ∀ {here there}, alike here there → ∀ script, here.elapsed script = there.elapsed script

/-- The same result and the same stacks in related surroundings. -/
inductive Parallel {α : Type} (alike : Surroundings → Surroundings → Prop) :
    α × State → α × State → Prop
  | same {result : α} {identity : String} {frames : List Frame} {loops : List LoopContext}
      {here there : Surroundings} (related : alike here there) :
      Parallel alike (result, ⟨⟨identity, frames, loops, here.timers⟩, here.world⟩)
        (result, ⟨⟨identity, frames, loops, there.timers⟩, there.world⟩)

theorem Parallel.result_eq {α : Type} {alike : Surroundings → Surroundings → Prop} {here there : α × State}
    (h : Parallel alike here there) : here.1 = there.1 := by
  cases h
  rfl

theorem Parallel.related {α : Type} {alike : Surroundings → Surroundings → Prop} {here there : α × State}
    (h : Parallel alike here there) :
    alike ⟨here.2.context.timers, here.2.world⟩ ⟨there.2.context.timers, there.2.world⟩ := by
  cases h
  assumption

/-- An operation on contexts that have a frame neither looks at the timers nor changes them. -/
def Timeless (operation : Context → Except Cause Context) : Prop :=
  ∀ identity frame callers loops, ∃ result : Except Cause (List Frame × List LoopContext), ∀ timers,
    operation ⟨identity, frame :: callers, loops, timers⟩ =
      result.map fun after => ⟨identity, after.1, after.2, timers⟩

namespace Machine

variable {machine : Machine}

theorem timeless_setIp (target : Nat) : Timeless (·.setIp target) :=
  fun _ frame callers loops => ⟨.ok ({ frame with ip := target } :: callers, loops), fun _ => rfl⟩

theorem timeless_assign (target expression : String) : Timeless (machine.assign target expression) := by
  intro identity frame callers loops
  refine ⟨(machine.evaluate expression frame.locals).map fun value =>
    ({ frame with ip := frame.ip + 1, locals := frame.locals.insert target value } :: callers, loops),
    fun timers => ?_⟩
  rw [assign_eq]
  cases machine.evaluate expression frame.locals <;> rfl

theorem timeless_branch (condition : String) (otherwise : Nat) :
    Timeless (machine.branch condition otherwise) := by
  intro identity frame callers loops
  refine ⟨(machine.evaluate condition frame.locals).map fun value =>
    ({ frame with ip := if value.isTruthy then frame.ip + 1 else otherwise } :: callers, loops),
    fun timers => ?_⟩
  rw [branch_eq]
  cases machine.evaluate condition frame.locals <;> rfl

theorem timeless_loopStart (condition : String) (exit : Nat) :
    Timeless (machine.loopStart condition exit) := by
  intro identity frame callers loops
  cases hv : machine.evaluate condition frame.locals with
  | error cause => exact ⟨.error cause, fun timers => loopStart_error machine hv⟩
  | ok value =>
    cases ht : value.isTruthy with
    | true =>
      cases hl : inOwnLoop (callers.length + 1) frame.ip loops with
      | true =>
        exact ⟨.ok (_, _), fun timers => loopStart_repeat machine hv ht hl⟩
      | false =>
        exact ⟨.ok (_, _), fun timers => loopStart_enter machine hv ht hl⟩
    | false =>
      cases hl : inOwnLoop (callers.length + 1) frame.ip loops with
      | true =>
        obtain ⟨loop, outer, rfl, hd, hr⟩ := inOwnLoop_iff.mp hl
        exact ⟨.ok (_, _), fun timers => loopStart_leave machine hv ht hd hr⟩
      | false =>
        exact ⟨.ok (_, _), fun timers => loopStart_skip machine hv ht hl⟩

theorem timeless_continueLoop : Timeless (·.continueLoop) := by
  intro identity frame callers loops
  cases h : ownLoop? (callers.length + 1) loops with
  | none => exact ⟨.error _, fun timers => Context.continueLoop_outside h⟩
  | some loop =>
    obtain ⟨outer, rfl, hd⟩ := ownLoop?_eq_some.mp h
    exact ⟨.ok (_, _), fun timers => Context.continueLoop_own hd⟩

/-! ## Steps -/

variable {alike : Surroundings → Surroundings → Prop} {here there : Surroundings} {identity : String}
  {frame : Frame} {callers frames : List Frame} {loops : List LoopContext}

/-- What is tried on the context gives the same result in related surroundings. -/
theorem attempt_parallel {α : Type} {operation : Context → Except Cause Context}
    (ht : Timeless operation) (h : alike here there) (result : α) :
    Parallel alike
      (State.attempt ⟨⟨identity, frame :: callers, loops, here.timers⟩, here.world⟩ result
        (operation ⟨identity, frame :: callers, loops, here.timers⟩))
      (State.attempt ⟨⟨identity, frame :: callers, loops, there.timers⟩, there.world⟩ result
        (operation ⟨identity, frame :: callers, loops, there.timers⟩)) := by
  obtain ⟨tried, hr⟩ := ht identity frame callers loops
  rw [hr, hr]
  cases tried with
  | error cause => exact .same h
  | ok after => exact .same h

theorem leave_parallel (h : alike here there) :
    Parallel alike (State.leave ⟨⟨identity, frames, loops, here.timers⟩, here.world⟩)
      (State.leave ⟨⟨identity, frames, loops, there.timers⟩, there.world⟩) := by
  rcases frames with _ | ⟨frame, _ | ⟨caller, others⟩⟩
  · exact .same h
  · exact .same h
  · cases hr : frame.resume with
    | none =>
      rw [State.leave, State.leave, Context.leave_stranded hr, Context.leave_stranded hr]
      exact .same h
    | some resume =>
      rw [State.leave, State.leave, Context.leave_callee hr, Context.leave_callee hr]
      exact .same h

theorem stored_parallel (h : alike here there) (slot : Option String) (value : Value)
    (degraded : Option Fault) (span : Span) :
    Parallel alike
      (stored slot value degraded span ⟨⟨identity, frames, loops, here.timers⟩, here.world⟩)
      (stored slot value degraded span ⟨⟨identity, frames, loops, there.timers⟩, there.world⟩) := by
  cases frames with
  | nil =>
    cases slot with
    | none => exact .same h
    | some name => exact .same h
  | cons frame callers =>
    rw [stored_eq, stored_eq]
    exact .same h

theorem settle_parallel {dispatched dispatched' : Except Cause Dispatched × State}
    (h : Parallel alike dispatched dispatched') (use : CommandUse) (span : Span) :
    Parallel alike (settle use span dispatched) (settle use span dispatched') := by
  obtain @⟨result, identity, frames, loops, here, there, related⟩ := h
  cases result with
  | error cause => exact .same related
  | ok dispatched =>
    cases dispatched with
    | value value => exact stored_parallel related ..
    | degraded value fault => exact stored_parallel related ..
    | transferred => exact .same related
    | returned fault => exact .same related
    | finished value => exact .same related

theorem perform_tick (site : CallSite) (here : Surroundings) :
    machine.perform site here.world.readClock.1 .secondsPassed
        ⟨⟨identity, frame :: callers, loops, here.timers⟩, here.world.readClock.2⟩ =
      (.ok (.value (.numeric (secondsOf (here.elapsed frame.script.name)))),
        ⟨⟨identity, frame :: callers, loops, (here.tick frame.script.name).timers⟩,
          (here.tick frame.script.name).world⟩) := rfl

/-- What a command asks for is done in the same way. The clock has been read before. -/
theorem perform_parallel (laws : Indistinct alike) (h : alike here there) (site : CallSite)
    (action : Action) :
    Parallel alike
      (machine.perform site here.world.readClock.1 action
        ⟨⟨identity, frame :: callers, loops, here.timers⟩, here.world.readClock.2⟩)
      (machine.perform site there.world.readClock.1 action
        ⟨⟨identity, frame :: callers, loops, there.timers⟩, there.world.readClock.2⟩) := by
  have hread : alike here.read there.read := laws.read h
  cases action with
  | value value => exact .same hread
  | print message => exact .same (laws.print hread message)
  | secondsPassed =>
    rw [perform_tick, perform_tick, laws.elapsed h]
    exact .same (laws.tick h frame.script.name)
  | breakLoop =>
    rw [perform_breakLoop, perform_breakLoop]
    cases ownLoop? (callers.length + 1) loops with
    | none => exact .same hread
    | some loop => exact .same hread
  | continueLoop => exact attempt_parallel timeless_continueLoop hread Dispatched.transferred
  | finish value => exact leave_parallel hread
  | call target arguments =>
    rw [perform_call, perform_call]
    cases machine.startOf site target arguments (callers.length + 1) with
    | inl degraded => exact .same hread
    | inr started => exact .same hread

theorem command_parallel (laws : Indistinct alike) (hc : machine.commands = .general)
    (h : alike here there) (use : CommandUse) (span : Span) :
    Parallel alike
      (machine.stepAt ⟨.command use, span⟩
        ⟨⟨identity, frame :: callers, loops, here.timers⟩, here.world⟩)
      (machine.stepAt ⟨.command use, span⟩
        ⟨⟨identity, frame :: callers, loops, there.timers⟩, there.world⟩) := by
  rw [stepAt_command, stepAt_command]
  cases use.arguments.mapM (machine.evaluate · frame.locals) with
  | error cause => exact .same h
  | ok arguments =>
    refine settle_parallel ?_ use span
    rw [dispatch_eq, dispatch_eq, hc]
    rcases CommandTable.request_timeless identity use.name arguments with ⟨cause, hr⟩ | ⟨answer, hr⟩
    · rw [hr, hr]
      exact .same h
    · rw [hr, hr]
      cases answer with
      | error cause => exact .same (laws.read h)
      | ok action => exact perform_parallel laws h _ action

/-- An instruction that only tries something on the context. -/
theorem stepAt_parallel {instruction : Instruction} {operation : Context → Except Cause Context}
    (ht : Timeless operation) (h : alike here there)
    (he : ∀ state, machine.execute instruction.operation state =
      state.attempt .continues (operation state.context)) :
    Parallel alike
      (machine.stepAt instruction ⟨⟨identity, frame :: callers, loops, here.timers⟩, here.world⟩)
      (machine.stepAt instruction ⟨⟨identity, frame :: callers, loops, there.timers⟩, there.world⟩) := by
  obtain ⟨tried, hr⟩ := ht identity frame callers loops
  rw [stepAt, stepAt, he, he, hr, hr]
  cases tried with
  | error cause => exact .same h
  | ok after => exact .same h

/-- Two states with the same stacks in related surroundings take the same step. -/
theorem step_parallel (laws : Indistinct alike) (hc : machine.commands = .general)
    (h : alike here there) :
    Parallel alike (machine.step ⟨⟨identity, frames, loops, here.timers⟩, here.world⟩)
      (machine.step ⟨⟨identity, frames, loops, there.timers⟩, there.world⟩) := by
  cases frames with
  | nil => exact .same h
  | cons frame callers =>
    cases hi : frame.script.instructions[frame.ip]? with
    | none =>
      rw [step_behind machine rfl hi, step_behind machine rfl hi]
      have hleave := @leave_parallel alike here there identity (frame :: callers) loops h
      rw [stepOut, stepOut]
      generalize State.leave ⟨⟨identity, frame :: callers, loops, here.timers⟩, here.world⟩ = left
        at hleave ⊢
      generalize State.leave ⟨⟨identity, frame :: callers, loops, there.timers⟩, there.world⟩ = left'
        at hleave ⊢
      obtain @⟨result, _, _, _, _, _, related⟩ := hleave
      cases result with
      | error cause => exact .same related
      | ok dispatched => cases dispatched <;> exact .same related
    | some instruction =>
      obtain ⟨operation, span⟩ := instruction
      rw [step_at machine rfl hi, step_at machine rfl hi]
      cases operation with
      | assign target expression =>
        exact stepAt_parallel (timeless_assign target expression) h fun _ => rfl
      | branch condition otherwise =>
        exact stepAt_parallel (timeless_branch condition otherwise) h fun _ => rfl
      | loopStart condition exit =>
        exact stepAt_parallel (timeless_loopStart condition exit) h fun _ => rfl
      | jump target => exact stepAt_parallel (timeless_setIp target) h fun _ => rfl
      | loopEnd start => exact stepAt_parallel (timeless_setIp start) h fun _ => rfl
      | command use => exact command_parallel laws hc h use span

/-! ## Runs -/

/-- Two runs under way that have taken the same steps so far end in the same way. -/
theorem runWithin_parallel (laws : Indistinct alike) (hc : machine.commands = .general)
    (h : alike here there) (limit remaining steps : Nat) (degraded : List Fault) :
    Parallel alike
      (machine.runWithin limit remaining
        ⟨⟨⟨identity, frames, loops, here.timers⟩, here.world⟩, steps, degraded⟩)
      (machine.runWithin limit remaining
        ⟨⟨⟨identity, frames, loops, there.timers⟩, there.world⟩, steps, degraded⟩) := by
  induction remaining generalizing identity frames loops here there steps degraded with
  | zero => exact .same h
  | succ remaining ih =>
    have hstep := @step_parallel machine alike here there identity frames loops laws hc h
    rw [runWithin, runWithin, advance, advance]
    generalize machine.step ⟨⟨identity, frames, loops, here.timers⟩, here.world⟩ = stepped at hstep ⊢
    generalize machine.step ⟨⟨identity, frames, loops, there.timers⟩, there.world⟩ = stepped'
      at hstep ⊢
    obtain @⟨progress, _, _, _, _, _, related⟩ := hstep
    cases progress with
    | running fault => exact ih related ..
    | finished value => exact .same related
    | failed fault => exact .same related

theorem run_parallel (laws : Indistinct alike) (hc : machine.commands = .general)
    (h : alike here there) (limit : Nat) :
    Parallel alike
      (machine.run limit ⟨⟨identity, frames, loops, here.timers⟩, here.world⟩)
      (machine.run limit ⟨⟨identity, frames, loops, there.timers⟩, there.world⟩) :=
  runWithin_parallel laws hc h limit limit 0 []

end Machine

/-- The timers with which a run of a script starts. -/
def freshTimers (script : String) : Dictionary Timer :=
  Dictionary.empty.insert script {}

/-- Runs of a script in related surroundings have the same outcome and leave related surroundings
behind. -/
theorem Engine.run_parallel {engine : Engine} {alike : Surroundings → Surroundings → Prop}
    (laws : Indistinct alike) (hc : engine.machine.commands = .general) {world world' : World}
    (h : ∀ script, alike ⟨freshTimers script, world⟩ ⟨freshTimers script, world'⟩) (name : String)
    (arguments : List Value) :
    (engine.run name arguments world).1 = (engine.run name arguments world').1 ∧
      ∃ timers timers', alike ⟨timers, (engine.run name arguments world).2⟩
        ⟨timers', (engine.run name arguments world').2⟩ := by
  rw [run, run]
  cases hp : engine.prepare name arguments with
  | error cause => exact ⟨rfl, _, _, h name⟩
  | ok context =>
    obtain ⟨script, bindings, -, -, rfl⟩ := prepare_ok hp
    have hrun := @Machine.run_parallel engine.machine alike _ _ script.name
      [{ script, locals := script.bind bindings }] [] laws hc (h script.name) engine.stepLimit
    exact ⟨hrun.result_eq, _, _, hrun.related⟩

namespace Console

/-- Offers messages in order. -/
def printAll (console : Console) (messages : List String) : Console :=
  messages.foldl print console

theorem offered_printAll (console : Console) (messages : List String) :
    (console.printAll messages).offered.toList = console.offered.toList ++ messages := by
  induction messages generalizing console with
  | nil => exact (List.append_nil _).symm
  | cons message rest ih =>
    have hp : (console.print message).offered.toList = console.offered.toList ++ [message] :=
      Array.toList_push
    rw [printAll, List.foldl_cons, ← printAll, ih, hp, List.append_assoc, List.singleton_append]

/-- The same messages have been offered to two consoles since they were as they are given first. -/
def SameOffers (first first' console console' : Console) : Prop :=
  ∃ messages, console = first.printAll messages ∧ console' = first'.printAll messages

variable {first first' console console' : Console}

theorem sameOffers_refl : SameOffers first first' first first' :=
  ⟨[], rfl, rfl⟩

theorem SameOffers.print (h : SameOffers first first' console console') (message : String) :
    SameOffers first first' (console.print message) (console'.print message) := by
  obtain ⟨messages, rfl, rfl⟩ := h
  refine ⟨messages ++ [message], ?_, ?_⟩
  · rw [printAll, printAll, List.foldl_append]
    rfl
  · rw [printAll, printAll, List.foldl_append]
    rfl

end Console

/-- Surroundings that differ in their consoles only, to which the same messages have been offered. -/
structure Surroundings.SameButConsole (first first' : Console) (here there : Surroundings) : Prop where
  timers : here.timers = there.timers
  clock : here.world.clock = there.world.clock
  readings : here.world.readings = there.world.readings
  console : Console.SameOffers first first' here.world.console there.world.console

theorem indistinct_sameButConsole (first first' : Console) :
    Indistinct (Surroundings.SameButConsole first first') where
  read h := ⟨h.timers, h.clock, congrArg (· + 1) h.readings, h.console⟩
  print h message := ⟨h.timers, h.clock, h.readings, h.console.print message⟩
  tick h script := by
    refine ⟨?_, h.clock, congrArg (· + 1) h.readings, h.console⟩
    simp only [Surroundings.tick, World.readClock, h.timers, h.clock, h.readings]
  elapsed h script := by
    simp only [Surroundings.elapsed, World.readClock, h.timers, h.clock, h.readings]

/-- A console that fails to write messages changes nothing. With any two consoles, of which each may fail
to write any of the messages, a run of a script has the same outcome: the same value, number of steps and
degraded results, or the same fault. And the same messages are offered to both consoles. -/
theorem console_failures_change_nothing {engine : Engine}
    (hgeneral : engine.machine.commands = .general) (name : String) (arguments : List Value)
    (world : World) (console console' : Console) :
    let here := engine.run name arguments { world with console }
    let there := engine.run name arguments { world with console := console' }
    here.1 = there.1 ∧
      ∃ messages, here.2.console.offered.toList = console.offered.toList ++ messages ∧
        there.2.console.offered.toList = console'.offered.toList ++ messages := by
  intro here there
  have hstart (script : String) : Surroundings.SameButConsole console console'
      ⟨freshTimers script, { world with console }⟩
      ⟨freshTimers script, { world with console := console' }⟩ :=
    ⟨rfl, rfl, rfl, Console.sameOffers_refl⟩
  obtain ⟨houtcome, _, _, hrelated⟩ :=
    Engine.run_parallel (indistinct_sameButConsole console console') hgeneral hstart name arguments
  obtain ⟨messages, hhere, hthere⟩ := hrelated.console
  refine ⟨houtcome, messages, ?_, ?_⟩
  · rw [← Console.offered_printAll, ← hhere]
  · rw [← Console.offered_printAll, ← hthere]

/-- A script that writes a message, calls another one, which writes one too, and fails then. -/
def gossip : Dictionary Script := .ofList
  [("main", ⟨"main", "main.script.xml", [], .multi,
    [⟨.command ⟨"PrintC", ["one"], none, none⟩, .atLine 1⟩,
      ⟨.command ⟨"Call", ["sub"], none, none⟩, .atLine 2⟩,
      ⟨.command ⟨"Break", [], none, none⟩, .atLine 3⟩]⟩),
    ("sub", ⟨"sub", "sub.script.xml", [], .multi,
      [⟨.command ⟨"PrintC", ["two"], none, none⟩, .atLine 1⟩]⟩)]

/-- A console that can write every other message only. -/
def stutter : Console where
  accepts := fun position _ => position % 2 == 1

/-- The run fails at the same place though one of the consoles has lost a message. -/
theorem gossip_to_stutter :
    ∃ engine, Engine.build gossip { evaluate := fun text _ => .ok (.string text) } = .ok engine ∧
      let here := engine.run "main" [] {}
      let there := engine.run "main" [] { console := stutter }
      here.1 = .error ⟨.outsideLoop .breakOut, some (.atLine 3)⟩ ∧ here.1 = there.1 ∧
        here.2.console.written.toList = ["one", "two"] ∧ there.2.console.written.toList = ["two"] ∧
        ∃ messages, here.2.console.offered.toList = messages ∧
          there.2.console.offered.toList = messages := by
  cases hb : Engine.build gossip { evaluate := fun text _ => .ok (.string text) } with
  | error fault => cases hb
  | ok engine =>
    have hgeneral : engine.machine.commands = .general := by
      cases hb
      rfl
    obtain ⟨hsame, messages, hhere, hthere⟩ :=
      console_failures_change_nothing hgeneral "main" [] {} {} stutter
    refine ⟨engine, rfl, ?_, hsame, ?_, ?_, messages, hhere, hthere⟩
    · cases hb
      rfl
    · cases hb
      rfl
    · cases hb
      rfl

end ScriptEngine
