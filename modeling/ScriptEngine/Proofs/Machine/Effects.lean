import ScriptEngine.Proofs.Machine.Events

/-!
# Effects of a run

The events of a run account for all that it does to the console and to the timers: who replays the
messages and the ticks among them gets the same console and the same timers. `Machine.step_outward`
says so of a step and `Machine.Takes.outward` of any number of them. What a console has taken stays on
it (`Outward.console_replay`).
-/

namespace ScriptEngine

/-- What a run has outside of its stacks. -/
structure Outward where
  /-- The name of the script that was started. -/
  identity : String
  console : Console
  timers : Dictionary Timer

/-- What a run has outside of its stacks in a state. -/
def State.outward (state : State) : Outward :=
  ⟨state.context.identity, state.world.console, state.context.timers⟩

/-- Replays an event. -/
def Outward.apply (outward : Outward) : Event → Outward
  | .printed message => { outward with console := outward.console.print message }
  | .ticked script timer => { outward with timers := outward.timers.insert script timer }
  | .evaluated .. | .dispatched .. => outward

/-- Replays events in their order. -/
def Outward.replay (outward : Outward) (events : List Event) : Outward :=
  events.foldl apply outward

theorem Outward.replay_append (outward : Outward) (events events' : List Event) :
    outward.replay (events ++ events') = (outward.replay events).replay events' :=
  List.foldl_append

/-- The messages on a console are the first ones on another console. -/
structure Console.IsPrefix (earlier later : Console) : Prop where
  written : earlier.written.toList <+: later.written.toList
  offered : earlier.offered.toList <+: later.offered.toList

theorem Console.isPrefix_refl (console : Console) : console.IsPrefix console :=
  ⟨List.prefix_rfl, List.prefix_rfl⟩

theorem Console.IsPrefix.trans {first second third : Console} (h : first.IsPrefix second)
    (h' : second.IsPrefix third) : first.IsPrefix third :=
  ⟨h.written.trans h'.written, h.offered.trans h'.offered⟩

theorem Console.isPrefix_print (console : Console) (message : String) :
    console.IsPrefix (console.print message) := by
  refine ⟨?_, ?_⟩
  · simp only [print]
    split
    · rw [Array.toList_push]
      exact List.prefix_append ..
    · exact List.prefix_rfl
  · rw [print, Array.toList_push]
    exact List.prefix_append ..

/-- Nothing is taken back from a console. -/
theorem Outward.console_replay (outward : Outward) (events : List Event) :
    outward.console.IsPrefix (outward.replay events).console := by
  induction events generalizing outward with
  | nil => exact outward.console.isPrefix_refl
  | cons event rest ih =>
    have hr := ih (outward.apply event)
    cases event with
    | printed message => exact (outward.console.isPrefix_print message).trans hr
    | ticked script timer => exact hr
    | evaluated expression locals => exact hr
    | dispatched command arguments => exact hr

theorem Outward.identity_replay (outward : Outward) (events : List Event) :
    (outward.replay events).identity = outward.identity := by
  induction events generalizing outward with
  | nil => rfl
  | cons event rest ih => exact (ih _).trans (by cases event <;> rfl)

variable {machine : Machine} {identity : String} {frame : Frame} {callers : List Frame}
  {loops : List LoopContext} {timers : Dictionary Timer} {world : World} {state : State}

theorem Machine.replay_evaluations (locals : Dictionary Value) (expressions : List String)
    (outward : Outward) : outward.replay (machine.evaluations locals expressions) = outward := by
  induction expressions with
  | nil => rfl
  | cons expression rest ih =>
    rw [evaluations]
    cases machine.evaluate expression locals with
    | error cause => rfl
    | ok value => exact ih

theorem CommandTable.request_console (commands : CommandTable) (identity name : String)
    (arguments : List Value) (world : World) :
    (commands.request identity name arguments world).2.console = world.console := by
  unfold request
  cases commands.lookup name with
  | none => rfl
  | some command =>
    dsimp only
    cases matchArguments command.name command.arity arguments <;> rfl

theorem State.leave_outward (state : State) : state.leave.2.outward = state.outward := by
  obtain ⟨⟨identity, frames, loops, timers⟩, world⟩ := state
  cases frames with
  | nil => rfl
  | cons frame callers =>
    cases callers with
    | nil => rfl
    | cons caller others =>
      cases hr : frame.resume with
      | none => rw [leave, Context.leave_stranded hr]; rfl
      | some resume => rw [leave, Context.leave_callee hr]; rfl

/-- A context differs from another one in its stacks only. -/
def Context.SameOutside (before after : Context) : Prop :=
  after.identity = before.identity ∧ after.timers = before.timers

/-- What is tried on a context leaves all but the stacks alone. -/
theorem State.attempt_outward {α : Type} {result : α} {tried : Except Cause Context}
    (h : ∀ context, tried = .ok context → state.context.SameOutside context) :
    (state.attempt result tried).2.outward = state.outward := by
  cases tried with
  | error cause => rfl
  | ok context =>
    obtain ⟨hi, ht⟩ := h context rfl
    rw [attempt, outward, hi, ht, outward]

theorem Context.Redirects.sameOutside {before after : Context} (h : before.Redirects after) :
    before.SameOutside after := by
  obtain ⟨_, _, _, _, -, rfl⟩ := h
  exact ⟨rfl, rfl⟩

namespace Machine

theorem perform_outward (site : CallSite) (now : Nat) (action : Action) :
    (machine.perform site now action
        ⟨⟨identity, frame :: callers, loops, timers⟩, world⟩).2.outward =
      (⟨identity, world.console, timers⟩ : Outward).replay
        (action.events frame.script.name timers now) := by
  cases action with
  | value value => rfl
  | print message => rfl
  | secondsPassed => rfl
  | breakLoop =>
    rw [perform_breakLoop]
    cases ownLoop? (callers.length + 1) loops <;> rfl
  | continueLoop =>
    exact State.attempt_outward fun _ h => (Context.continueLoop_redirects h).sameOutside
  | finish value => exact State.leave_outward _
  | call target arguments =>
    rw [perform_call]
    cases machine.startOf site target arguments (callers.length + 1) <;> rfl

theorem stored_outward (slot : Option String) (value : Value) (degraded : Option Fault) (span : Span)
    (after : State) : (stored slot value degraded span after).2.outward = after.outward := by
  obtain ⟨⟨identity, frames, loops, timers⟩, world⟩ := after
  cases frames with
  | nil => cases slot <;> rfl
  | cons frame callers => rw [stored_eq]; rfl

theorem stepOut_outward (state : State) : (stepOut state).2.outward = state.outward := by
  have hl := state.leave_outward
  rw [stepOut]
  generalize state.leave = left at hl ⊢
  obtain ⟨result, after⟩ := left
  cases result with
  | error cause => exact hl
  | ok dispatched => cases dispatched <;> exact hl

theorem settle_outward (use : CommandUse) (span : Span) (result : Except Cause Dispatched)
    (after : State) : (settle use span (result, after)).2.outward = after.outward := by
  cases result with
  | error cause => rfl
  | ok dispatched =>
    cases dispatched with
    | value value => exact stored_outward ..
    | degraded value fault => exact stored_outward ..
    | transferred => rfl
    | returned fault => rfl
    | finished value => rfl

/-! ## Steps -/

theorem stepAt_command_outward (use : CommandUse) (span : Span) :
    (machine.stepAt ⟨.command use, span⟩
        ⟨⟨identity, frame :: callers, loops, timers⟩, world⟩).2.outward =
      (⟨identity, world.console, timers⟩ : Outward).replay
        (machine.commandEvents identity frame timers world use) := by
  rw [stepAt_command, commandEvents, Outward.replay_append, replay_evaluations]
  cases use.arguments.mapM (machine.evaluate · frame.locals) with
  | error cause => rfl
  | ok arguments =>
    have hc := machine.commands.request_console identity use.name arguments world
    simp only [dispatch_eq]
    cases hr : machine.commands.request identity use.name arguments world with
    | mk result world' =>
      rw [hr] at hc
      cases result with
      | error cause => exact congrArg (Outward.mk identity · timers) hc
      | ok action =>
        have hp := @perform_outward machine identity frame callers loops timers world'
          ⟨use.result, use.expect⟩ world.readClock.1 action
        rw [hc] at hp
        exact (settle_outward ..).trans hp

theorem stepAt_outward {operation : Operation} {span : Span} {tried : Except Cause Context}
    (he : machine.execute operation state = state.attempt .continues tried)
    (ht : ∀ context, tried = .ok context → state.context.SameOutside context) :
    (machine.stepAt ⟨operation, span⟩ state).2.outward = state.outward := by
  have ha := @State.attempt_outward state _ Executed.continues tried ht
  rw [stepAt, he]
  cases tried <;> exact ha

/-- The events of a step account for all that it does to the console and the timers. -/
theorem step_outward (state : State) :
    (machine.step state).2.outward = state.outward.replay (machine.observe state) := by
  obtain ⟨⟨identity, frames, loops, timers⟩, world⟩ := state
  cases frames with
  | nil => rfl
  | cons frame callers =>
    cases hi : frame.script.instructions[frame.ip]? with
    | none =>
      rw [step_behind machine rfl hi]
      simp only [observe, Frame.operation?, hi, Option.map_none]
      exact (stepOut_outward _).trans rfl
    | some instruction =>
      obtain ⟨operation, span⟩ := instruction
      rw [step_at machine rfl hi]
      simp only [observe, Frame.operation?, hi, Option.map_some]
      cases operation with
      | command use => exact stepAt_command_outward use span
      | assign target expression =>
        refine stepAt_outward rfl fun context h => ?_
        rw [assign_eq] at h
        obtain ⟨value, -, rfl⟩ := ok_of_map h
        exact ⟨rfl, rfl⟩
      | branch condition otherwise =>
        refine stepAt_outward rfl fun context h => ?_
        rw [branch_eq] at h
        obtain ⟨value, -, rfl⟩ := ok_of_map h
        exact ⟨rfl, rfl⟩
      | loopStart condition exit =>
        exact stepAt_outward rfl fun _ h => (loopStart_redirects machine h).sameOutside
      | jump target => rfl
      | loopEnd start => rfl

/-- The events of some steps account for all that they do to the console and the timers. -/
theorem Takes.outward {steps : Nat} {first last : State × Log}
    (h : machine.Takes steps first last) :
    ∃ events, last.2.events = first.2.events ++ events ∧
      last.1.outward = first.1.outward.replay events := by
  induction h with
  | stay => exact ⟨[], (List.append_nil _).symm, rfl⟩
  | @step _ before after log last degraded goes _ ih =>
    obtain ⟨events, he, ho⟩ := ih
    have hs := @step_outward machine before
    rw [goes] at hs
    refine ⟨machine.observe before ++ events, ?_, ?_⟩
    · rw [he, Log.add, List.append_assoc]
    · rw [ho, hs, Outward.replay_append]

end Machine

end ScriptEngine
